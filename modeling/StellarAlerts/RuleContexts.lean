import StellarAlerts.RulesEngine

/-!
The rules engine on payments of any shape: an amount that is a number or a text, and
under any other name any value, also lists that a path leads through. What an object, a
function or an inherited member gives is the runtime's and may throw.
-/
namespace StellarAlerts.RuleContexts
open Numbers
open RulesEngine (PathToken parseJsonPath FilterOperator Comparable)
open Utf16Text (includes)

inductive Value where
  | undefined
  | null
  | bool (b : Bool)
  | number (n : Number)
  | text (s : String)
  | function (name : String)
  | array (items : List Value)
  | object (members : List (String × Value))

/-- Beside the texts of numbers and functions: what is inherited from the prototypes, and what an object is
    as a text and as a number. -/
structure Runtime extends RulesEngine.Runtime where
  inherited : Value → String → Option Value
  ofObject : List (String × Value) → Except String String
  objectNumber : List (String × Value) → Except String Number

/-- A payment and what else is known of it. -/
structure PaymentContext where
  amount : Number ⊕ String
  asset : String
  others : List (String × Value)

def amountValue : Number ⊕ String → Value
  | .inl n => .number n
  | .inr s => .text s

def PaymentContext.value (payment : PaymentContext) : Value :=
  .object (("amount",amountValue payment.amount) :: ("asset",.text payment.asset) :: payment.others)

inductive Scalar where
  | text (s : String)
  | number (n : Number)
  | bool (b : Bool)
deriving DecidableEq

def Scalar.value : Scalar → Value
  | .text s => .text s
  | .number n => .number n
  | .bool b => .bool b

inductive RuleValue where
  | absent
  | one (v : Scalar)
  | list (vs : List Scalar)
deriving DecidableEq

def RuleValue.value : RuleValue → Value
  | .absent => .undefined
  | .one v => v.value
  | .list vs => .array (vs.map Scalar.value)

structure FilterRule where
  field : String
  operator : FilterOperator
  value : RuleValue
deriving DecidableEq

inductive GroupOperator where
  | AND
  | OR
deriving DecidableEq, Repr

/-- What may stand among the rules of a group. -/
inductive FilterItem where
  | rule (rule : FilterRule)
  | group (operator : GroupOperator) (rules : List FilterItem)

structure FilterRuleGroup where
  operator : GroupOperator
  rules : List FilterItem

section Evaluation
variable (r : Runtime)

mutual

/-- `String(v)`. -/
def toText : Value → Except String String
  | .undefined => .ok "undefined"
  | .null => .ok "null"
  | .bool b => .ok (if b then "true" else "false")
  | .number n => .ok (r.texts.ofNumber n)
  | .text s => .ok s
  | .function name => .ok (r.ofFunction name)
  | .array items => (parts items).map (String.intercalate ",")
  | .object members => r.ofObject members

/-- What an array joins: nothing for undefined and null. -/
def parts : List Value → Except String (List String)
  | [] => .ok []
  | .undefined :: rest => (parts rest).map fun texts => "" :: texts
  | .null :: rest => (parts rest).map fun texts => "" :: texts
  | item :: rest =>
    match toText item, parts rest with
    | .ok text, .ok texts => .ok (text :: texts)
    | .error e, _ => .error e
    | _, .error e => .error e

end

/-- The text of what a rule compares with. -/
def Scalar.toText : Scalar → String
  | .text s => s
  | .number n => r.texts.ofNumber n
  | .bool b => if b then "true" else "false"

/-- `Number(v)`. -/
def toNumber : Value → Except String Number
  | .undefined => .ok .nan
  | .null => .ok (.finite 0)
  | .bool b => .ok (.finite (if b then 1 else 0))
  | .number n => .ok n
  | .text s => .ok (r.texts.double s)
  | .function name => .ok (r.texts.double (r.ofFunction name))
  | .array items => (toText r (.array items)).map r.texts.double
  | .object members => r.objectNumber members

/-- `v[name]` where `name in v`: what it has itself, then what it inherits. -/
def property (v : Value) (name : String) : Option Value :=
  match v with
  | .object members => (members.lookup name).or (r.inherited v name)
  | .array items =>
    if name = "length" then some (.number (.finite items.length))
    else
      match (List.range items.length).find? fun i => toString i = name with
      | some i => items[i]?
      | none => r.inherited v name
  | _ => none

def follow (v : Value) : PathToken → List Value
  | .any =>
    match v with
    | .array items => items
    | _ => []
  | .index digits => (property r v (r.texts.ofNumber (r.texts.double digits))).toList
  | .key name => (property r v name).toList

def resolveJsonPath (context : Value) (path : String) : List Value :=
  (parseJsonPath path).foldl (fun values token => values.flatMap fun v => follow r v token) [context]

def getFieldValues (rule : FilterRule) (context : Value) : List Value :=
  if rule.field.toList.head? = some '$' then resolveJsonPath r context rule.field
  else
    match property r context rule.field with
    | none => []
    | some .undefined => []
    | some v => [v]

def normalizeComparable (v : Value) (numeric : Bool) : Except String Comparable :=
  if numeric then (toNumber r v).map .number
  else
    match v with
    | .bool b => .ok (.bool b)
    | v => (toText r v).map .text

def hasValue : Value → Bool
  | .undefined => false
  | .null => false
  | _ => true

def isNumber : Value → Bool
  | .number _ => true
  | _ => false

/-- `Array.isArray(value) && found(value.map(String))`. -/
def amongTexts (found : List String → Bool) : RuleValue → Bool
  | .list vs => found (vs.map (Scalar.toText r))
  | _ => false

/-- The comparisons of `evaluateValue`; whether there is a value was asked before. -/
def compare (rule : FilterRule) (contextValue ruleValue : Comparable) : Bool :=
  match rule.operator with
  | .gt => (ruleValue.toNumber r.toRuntime).lt (contextValue.toNumber r.toRuntime)
  | .gte => (ruleValue.toNumber r.toRuntime).le (contextValue.toNumber r.toRuntime)
  | .lt => (contextValue.toNumber r.toRuntime).lt (ruleValue.toNumber r.toRuntime)
  | .lte => (contextValue.toNumber r.toRuntime).le (ruleValue.toNumber r.toRuntime)
  | .eq => contextValue.same ruleValue
  | .ne => !contextValue.same ruleValue
  | .contains => includes (r.texts.toLowerCase (contextValue.toText r.toRuntime)) (r.texts.toLowerCase (ruleValue.toText r.toRuntime))
  | .in_ => amongTexts r (fun texts => texts.contains (contextValue.toText r.toRuntime)) rule.value
  | .nin => amongTexts r (fun texts => !texts.contains (contextValue.toText r.toRuntime)) rule.value
  | .exists_ => true
  | .notExists => false

def evaluateValue (fieldValue : Value) (rule : FilterRule) : Except String Bool :=
  if rule.operator = .exists_ then .ok (hasValue fieldValue)
  else if rule.operator = .notExists then .ok (!hasValue fieldValue)
  else if hasValue fieldValue then
    let numeric := isNumber fieldValue || rule.field = "amount"
    match normalizeComparable r fieldValue numeric, normalizeComparable r rule.value.value numeric with
    | .ok contextValue, .ok ruleValue => .ok (compare r rule contextValue ruleValue)
    | .error e, _ => .error e
    | _, .error e => .error e
  else .ok false

/-- `values.every(test)`, which ends at the first that fails. -/
def every (test : Value → Except String Bool) : List Value → Except String Bool
  | [] => .ok true
  | v :: rest =>
    match test v with
    | .ok true => every test rest
    | other => other

/-- `values.some(test)`, which ends at the first that passes. -/
def any (test : Value → Except String Bool) : List Value → Except String Bool
  | [] => .ok false
  | v :: rest =>
    match test v with
    | .ok false => any test rest
    | other => other

def evaluateRule (rule : FilterRule) (context : Value) : Except String Bool :=
  match getFieldValues r rule context with
  | [] => evaluateValue r .undefined rule
  | values =>
    if rule.operator = .ne ∨ rule.operator = .nin ∨ rule.operator = .notExists then
      every (fun v => evaluateValue r v rule) values
    else any (fun v => evaluateValue r v rule) values

/-- What the results of a group's rules come to; without rules nothing is asked. -/
def combine (operator : GroupOperator) (results : List Bool) : Bool :=
  match results, operator with
  | [], _ => true
  | results, .AND => results.all fun result => result
  | results, .OR => results.any fun result => result

mutual

def evaluateItem (context : Value) : FilterItem → Except String Bool
  | .rule rule => evaluateRule r rule context
  | .group operator rules => (evaluateItems context rules).map (combine operator)

/-- Each of the rules is evaluated, before they are combined. -/
def evaluateItems (context : Value) : List FilterItem → Except String (List Bool)
  | [] => .ok []
  | item :: rest =>
    match evaluateItem context item, evaluateItems context rest with
    | .ok result, .ok results => .ok (result :: results)
    | .error e, _ => .error e
    | _, .error e => .error e

end

def evaluateRuleGroup (group : FilterRuleGroup) (context : Value) : Except String Bool :=
  (evaluateItems r context group.rules).map (combine group.operator)

def shouldAlert (filterRules : Option FilterRuleGroup) (payment : Value) : Bool :=
  match filterRules with
  | none => true
  | some group =>
    if group.rules.isEmpty then true
    else
      match evaluateRuleGroup r group payment with
      | .ok alert => alert
      | .error _ => true

end Evaluation

section
variable {r : Runtime}

@[simp] theorem toText_scalar (v : Scalar) : toText r v.value = .ok (v.toText r) := by
  cases v <;> simp [Scalar.value,Scalar.toText,toText]

theorem parts_scalars (vs : List Scalar) : parts r (vs.map Scalar.value) = .ok (vs.map (Scalar.toText r)) := by
  induction vs with
  | nil => simp [parts]
  | cons v rest ih => cases v <;> simp [Scalar.value,Scalar.toText,parts,toText,ih]

@[simp] theorem any_single (test : Value → Except String Bool) (v : Value) : any test [v] = test v := by
  rw [any]
  cases test v with
  | error e => rfl
  | ok b => cases b <;> rfl

@[simp] theorem property_amount (payment : PaymentContext) :
    property r payment.value "amount" = some (amountValue payment.amount) := rfl
@[simp] theorem property_asset (payment : PaymentContext) : property r payment.value "asset" = some (.text payment.asset) := rfl

theorem ruleValue_ok (v : RuleValue) (numeric : Bool) : ∃ c, normalizeComparable r v.value numeric = .ok c := by
  cases v with
  | absent => cases numeric <;> simp [normalizeComparable,RuleValue.value,toNumber,toText,Except.map]
  | one v =>
    cases v <;> cases numeric <;>
      simp [normalizeComparable,RuleValue.value,Scalar.value,toNumber,toText,Except.map]
  | list vs =>
    have text : toText r (.array (vs.map Scalar.value)) = .ok (String.intercalate "," (vs.map (Scalar.toText r))) := by
      rw [toText,parts_scalars]
      rfl
    cases numeric <;> simp [normalizeComparable,RuleValue.value,toNumber,text,Except.map]

theorem shouldAlert_evaluates {group : FilterRuleGroup} {payment : Value} {alert : Bool}
    (evaluates : evaluateRuleGroup r group payment = .ok alert) : shouldAlert r (some group) payment = alert := by
  obtain ⟨operator,rules⟩ := group
  cases rules with
  | nil => exact Except.ok.inj evaluates
  | cons item rest =>
    show (match evaluateRuleGroup r ⟨operator,item :: rest⟩ payment with
      | .ok alert => alert
      | .error _ => true) = alert
    rw [evaluates]

theorem evaluateItem_group (group : FilterRuleGroup) (context : Value) :
    evaluateItem r context (.group group.operator group.rules) = evaluateRuleGroup r group context := by
  rw [evaluateItem,evaluateRuleGroup]

end

end StellarAlerts.RuleContexts
