import StellarAlerts.JsValues
import StellarAlerts.Watcher

/-!
The rules engine on any JSON value that may be stored. `Evaluable` says of a stored
value that nothing throws (`evaluates_iff`): that it is a group in form, down to rules
whose field is a text and which, where the payment has a value for it, have an operator
that is known and a value with a text.
-/
namespace StellarAlerts.RulesEngine
open JsonTexts JsValues Numbers
open Utf16Text (includes)
open Watcher (PaymentContext)

/-- The runtime's texts, also of the functions that every object inherits. -/
structure Runtime where
  texts : Texts
  ofFunction : String → String

/-- What may be found at a field of a payment. -/
inductive Value where
  | undefined
  | null
  | number (n : Number)
  | text (s : String)
  | function (name : String)
  | context
  | prototype
deriving DecidableEq

inductive FilterOperator where
  | gt
  | gte
  | lt
  | lte
  | eq
  | ne
  | contains
  | exists_
  | notExists
  | in_
  | nin
deriving DecidableEq, Repr

def FilterOperator.ofText : String → Option FilterOperator
  | "gt" => some .gt
  | "gte" => some .gte
  | "lt" => some .lt
  | "lte" => some .lte
  | "eq" => some .eq
  | "ne" => some .ne
  | "contains" => some .contains
  | "exists" => some .exists_
  | "not_exists" => some .notExists
  | "in" => some .in_
  | "nin" => some .nin
  | _ => none

def operatorOf (rule : List (String × Json)) : Option FilterOperator :=
  match lookup rule "operator" with
  | some (.string s) => FilterOperator.ofText s
  | _ => none

inductive PathToken where
  | key (name : String)
  | index (digits : String)
  | any
deriving DecidableEq, Repr

def isKeyChar (c : Char) : Bool := c ≠ '.' && c ≠ '[' && c ≠ ']'
def keyToken (key : List Char) : PathToken := if key = ['*'] then .any else .key (String.ofList key)

def bracketToken (cs : List Char) : Option (PathToken × List Char) :=
  let quoted (quote : Char) (rest : List Char) : Option (PathToken × List Char) :=
    let inner := rest.takeWhile fun c => c ≠ quote
    match rest.dropWhile fun c => c ≠ quote with
    | _ :: ']' :: behind => if inner.isEmpty then none else some (keyToken inner,behind)
    | _ => none
  match cs with
  | '$' :: ']' :: behind => some (.key "",behind)
  | '"' :: rest => quoted '"' rest
  | '\'' :: rest => quoted '\'' rest
  | cs =>
    match cs.takeWhile Char.isDigit, cs.dropWhile Char.isDigit with
    | digit :: digits, ']' :: behind => some (.index (String.ofList (digit :: digits)),behind)
    | _, _ => none

/-- The matches of the path's expression, from left to right; there are no more than characters. -/
def matchTokens : Nat → List Char → List PathToken
  | 0, _ => []
  | _, [] => []
  | fuel + 1, c :: cs =>
    let keyAt := if c = '.' then cs else c :: cs
    match keyAt.takeWhile isKeyChar with
    | k :: ks => keyToken (k :: ks) :: matchTokens fuel (keyAt.dropWhile isKeyChar)
    | [] =>
      match if c = '[' then bracketToken cs else none with
      | some (token,behind) => token :: matchTokens fuel behind
      | none => matchTokens fuel cs

def parseJsonPath (path : String) : List PathToken :=
  let normalized := match path.toList with
    | '$' :: '.' :: rest => rest
    | '$' :: rest => rest
    | cs => cs
  matchTokens normalized.length normalized

def inheritedNames : List String :=
  ["constructor","hasOwnProperty","isPrototypeOf","propertyIsEnumerable","toLocaleString","toString","valueOf",
    "__defineGetter__","__defineSetter__","__lookupGetter__","__lookupSetter__"]

section Evaluation
variable (r : Runtime) (context : PaymentContext Number)

/-- `name in v` and `v[name]`, where `v` is an object. -/
def property (v : Value) (name : String) : Option Value :=
  let inherited := if inheritedNames.contains name then some (Value.function name) else none
  match v with
  | .context =>
    match name with
    | "amount" => some (.number context.amount)
    | "asset" => some (.text context.asset)
    | "fromAddress" => some (.text context.fromAddress)
    | "memo" => some ((context.memo.map Value.text).getD .null)
    | "__proto__" => some .prototype
    | _ => inherited
  | .prototype => if name = "__proto__" then some .null else inherited
  | _ => none

def follow (v : Value) : PathToken → Option Value
  | .key name => property context v name
  | .index digits => property context v (r.texts.ofNumber (r.texts.double digits))
  | .any => none

def resolveJsonPath (path : String) : List Value :=
  (parseJsonPath path).foldl (fun values token => values.filterMap fun v => follow r context v token) [.context]

def getFieldValues (field : String) : List Value :=
  if field.toList.head? = some '$' then resolveJsonPath r context field
  else (property context .context field).toList

/-- What values are compared as. -/
inductive Comparable where
  | number (n : Number)
  | bool (b : Bool)
  | text (s : String)
deriving DecidableEq

def Comparable.toNumber : Comparable → Number
  | .number n => n
  | .bool b => .finite (if b then 1 else 0)
  | .text s => r.texts.double s

def Comparable.toText : Comparable → String
  | .number n => r.texts.ofNumber n
  | .bool b => if b then "true" else "false"
  | .text s => s

/-- `===`. -/
def Comparable.same : Comparable → Comparable → Bool
  | .number a, .number b => a.same b
  | .bool a, .bool b => a = b
  | .text a, .text b => a = b
  | _, _ => false

def Value.toText : Value → String
  | .undefined => "undefined"
  | .null => "null"
  | .number n => r.texts.ofNumber n
  | .text s => s
  | .function name => r.ofFunction name
  | .context => "[object Object]"
  | .prototype => "[object Object]"

def Value.toNumber : Value → Number
  | .undefined => .nan
  | .null => .finite 0
  | .number n => n
  | v => r.texts.double (v.toText r)

/-- `normalizeComparable` of a payment's value. -/
def normalizeValue (v : Value) (numeric : Bool) : Comparable :=
  if numeric then .number (v.toNumber r) else .text (v.toText r)

/-- `normalizeComparable` of a rule's value. -/
def normalizeRuleValue (v : Option Json) (numeric : Bool) : Except String Comparable :=
  match v, numeric with
  | none, true => .ok (.number .nan)
  | none, false => .ok (.text "undefined")
  | some v, true => (toNumber r.texts v).map Comparable.number
  | some (.bool b), false => .ok (.bool b)
  | some v, false => (toText r.texts v).map Comparable.text

def hasValue : Value → Bool
  | .undefined => false
  | .null => false
  | _ => true

def isNumber : Value → Bool
  | .number _ => true
  | _ => false

/-- `Array.isArray(value) && found(value.map(String))`. -/
def amongTexts (found : List String → Bool) : Option Json → Except String Bool
  | some (.array items) => (toTexts r.texts items).map found
  | _ => .ok false

def unknownOperator (operator : Option Json) : String :=
  match operator with
  | none => "Unknown operator: undefined"
  | some v =>
    match toText r.texts v with
    | .ok text => "Unknown operator: " ++ text
    | .error e => e

def compare (operator : Option FilterOperator) (contextValue ruleValue : Comparable) (rule : List (String × Json)) :
    Except String Bool :=
  match operator with
  | some .gt => .ok ((ruleValue.toNumber r).lt (contextValue.toNumber r))
  | some .gte => .ok ((ruleValue.toNumber r).le (contextValue.toNumber r))
  | some .lt => .ok ((contextValue.toNumber r).lt (ruleValue.toNumber r))
  | some .lte => .ok ((contextValue.toNumber r).le (ruleValue.toNumber r))
  | some .eq => .ok (contextValue.same ruleValue)
  | some .ne => .ok (!contextValue.same ruleValue)
  | some .contains =>
    .ok (includes (r.texts.toLowerCase (contextValue.toText r)) (r.texts.toLowerCase (ruleValue.toText r)))
  | some .in_ => amongTexts r (fun texts => texts.contains (contextValue.toText r)) (lookup rule "value")
  | some .nin => amongTexts r (fun texts => !texts.contains (contextValue.toText r)) (lookup rule "value")
  | _ => .error (unknownOperator r (lookup rule "operator"))

def evaluateValue (fieldValue : Value) (rule : List (String × Json)) : Except String Bool :=
  match operatorOf rule with
  | some .exists_ => .ok (hasValue fieldValue)
  | some .notExists => .ok (!hasValue fieldValue)
  | operator =>
    if hasValue fieldValue then
      let numeric := isNumber fieldValue || isText (lookup rule "field") "amount"
      match normalizeRuleValue r (lookup rule "value") numeric with
      | .ok ruleValue => compare r operator (normalizeValue r fieldValue numeric) ruleValue rule
      | .error e => .error e
    else .ok false

/-- `values.every(test)`, which ends at the first that fails. -/
def every (test : Value → Except String Bool) : List Value → Except String Bool
  | [] => .ok true
  | v :: rest =>
    match test v with
    | .ok true => every test rest
    | other => other

/-- `values.some(test)`, which ends at the first that passes. -/
def some_ (test : Value → Except String Bool) : List Value → Except String Bool
  | [] => .ok false
  | v :: rest =>
    match test v with
    | .ok false => some_ test rest
    | other => other

def evaluateRule (rule : List (String × Json)) : Except String Bool :=
  match lookup rule "field" with
  | some (.string field) =>
    match getFieldValues r context field with
    | [] => evaluateValue r .undefined rule
    | values =>
      match operatorOf rule with
      | some .ne | some .nin | some .notExists => every (fun v => evaluateValue r v rule) values
      | _ => some_ (fun v => evaluateValue r v rule) values
  | _ => .error typeError

/-- The rules are evaluated before the operator is read; without rules the answer is true. -/
def combine (operator : Option Json) (results : List Bool) : Bool :=
  if results.isEmpty then true
  else if isText operator "AND" then results.all fun result => result
  else results.any fun result => result

def group (operator : Option Json) : Option (Except String (List Bool)) → Except String Bool
  | none => .error typeError
  | some results => results.map (combine operator)

mutual

/-- What the rules of a group evaluate to: only arrays have items, and other values without a length of zero cannot be mapped. -/
def evaluateRules : Json → Except String (List Bool)
  | .array items => evaluateItems items
  | .string s => if s = "" then .ok [] else .error typeError
  | .object members =>
    match lookup members "length" with
    | some (.number n) => if n = .finite 0 then .ok [] else .error typeError
    | _ => .error typeError
  | _ => .error typeError

def evaluateItems : List Json → Except String (List Bool)
  | [] => .ok []
  | item :: rest =>
    match evaluateItem item, evaluateItems rest with
    | .ok result, .ok results => .ok (result :: results)
    | .error e, _ => .error e
    | _, .error e => .error e

/-- A rule is a group if its rules are an array. -/
def evaluateItem : Json → Except String Bool
  | .object members =>
    if isArray (lookup members "rules") then group (lookup members "operator") (rulesOf members)
    else evaluateRule r context members
  | _ => .error typeError

/-- What the member `rules` evaluates to, the last of them. -/
def rulesOf : List (String × Json) → Option (Except String (List Bool))
  | [] => none
  | (name,value) :: rest => (rulesOf rest).or (if name = "rules" then some (evaluateRules value) else none)

end

def evaluateRuleGroup : Json → Except String Bool
  | .object members => group (lookup members "operator") (rulesOf r context members)
  | _ => .error typeError

/-- Whether the rules have a length of zero; to ask it of no rules throws. -/
def lengthZero : Option Json → Except String Bool
  | none => .error typeError
  | some .null => .error typeError
  | some (.array items) => .ok items.isEmpty
  | some (.string s) => .ok (s = "")
  | some (.object members) =>
    match lookup members "length" with
    | some (.number n) => .ok (n = .finite 0)
    | _ => .ok false
  | some _ => .ok false

def rulesMember : Json → Option Json
  | .object members => lookup members "rules"
  | _ => none

/-- Alerts on all payments where the rules cannot be evaluated, if they can be looked at. -/
def shouldAlert (filterRules : Option Json) : Except String Bool :=
  match filterRules with
  | none => .ok true
  | some filterRules =>
    if truthy filterRules then
      match lengthZero (rulesMember filterRules) with
      | .error e => .error e
      | .ok true => .ok true
      | .ok false =>
        match evaluateRuleGroup r context filterRules with
        | .ok alert => .ok alert
        | .error _ => .ok true
    else .ok true

end Evaluation

section Throws
variable {r : Runtime} {context : PaymentContext Number}

def asksForValue : Option FilterOperator → Bool
  | some .exists_ => true
  | some .notExists => true
  | _ => false

/-- A rule whose field is a text and which, where the payment has a value there, has an operator
    that is known and, unless it only asks for the value, one of its own that has a text. -/
def EvaluableRule (r : Runtime) (context : PaymentContext Number) (rule : List (String × Json)) : Prop :=
  ∃ field, lookup rule "field" = some (.string field) ∧ ∀ v ∈ getFieldValues r context field, hasValue v = true →
    asksForValue (operatorOf rule) = true ∨
      ((operatorOf rule).isSome = true ∧ ∀ value, lookup rule "value" = some value → convertible value = true)

def isGroup : Json → Bool
  | .object members => isArray (lookup members "rules")
  | _ => false

/-- A group in form, down to its rules. -/
inductive Evaluable (r : Runtime) (context : PaymentContext Number) : Json → Prop where
  | empty {members : List (String × Json)} (zero : lengthZero (lookup members "rules") = .ok true) :
      Evaluable r context (.object members)
  | rules {members : List (String × Json)} {items : List Json} (there : lookup members "rules" = some (.array items))
      (groups : ∀ item ∈ items, isGroup item = true → Evaluable r context item)
      (single : ∀ item ∈ items, isGroup item = false → ∃ rule, item = .object rule ∧ EvaluableRule r context rule) :
      Evaluable r context (.object members)

theorem normalizeRuleValue_ok_iff (v : Option Json) (numeric : Bool) :
    (∃ c, normalizeRuleValue r v numeric = .ok c) ↔ ∀ value, v = some value → convertible value = true := by
  have number : ∀ v : Json, (∃ c, (toNumber r.texts v).map Comparable.number = .ok c) ↔ convertible v = true :=
    fun v => (map_ok_iff Comparable.number).trans (toNumber_ok_iff v)
  have text : ∀ v : Json, (∃ c, (toText r.texts v).map Comparable.text = .ok c) ↔ convertible v = true :=
    fun v => (map_ok_iff Comparable.text).trans (toText_ok_iff v)
  cases v with
  | none => cases numeric <;> simp [normalizeRuleValue]
  | some v =>
    cases numeric with
    | true => simpa [normalizeRuleValue] using number v
    | false =>
      cases v with
      | bool b => simp [normalizeRuleValue,convertible]
      | _ => simpa [normalizeRuleValue] using text _

theorem compare_ok_iff {operator : Option FilterOperator} (other : asksForValue operator = false)
    {contextValue ruleValue : Comparable} {rule : List (String × Json)}
    (values : ∀ value, lookup rule "value" = some value → convertible value = true) :
    (∃ b, compare r operator contextValue ruleValue rule = .ok b) ↔ operator.isSome = true := by
  have among : ∀ found : List String → Bool, ∃ b, amongTexts r found (lookup rule "value") = .ok b := by
    intro found
    cases value : lookup rule "value" with
    | none => exact ⟨false,rfl⟩
    | some v =>
      cases v with
      | array items =>
        have texts := (toTexts_ok_iff (t := r.texts) items).mpr (values _ value)
        obtain ⟨texts,are⟩ := texts
        exact ⟨found texts,by simp [amongTexts,are,Except.map]⟩
      | _ => exact ⟨false,rfl⟩
  cases operator with
  | none => simp [compare]
  | some operator =>
    cases operator with
    | exists_ => cases other
    | notExists => cases other
    | in_ => simpa [compare] using among _
    | nin => simpa [compare] using among _
    | _ => simp [compare]

theorem evaluateValue_ok_iff (v : Value) (rule : List (String × Json)) :
    (∃ b, evaluateValue r v rule = .ok b) ↔ (hasValue v = true → asksForValue (operatorOf rule) = true ∨
      ((operatorOf rule).isSome = true ∧ ∀ value, lookup rule "value" = some value → convertible value = true)) := by
  cases asks : asksForValue (operatorOf rule) with
  | true =>
    cases operator : operatorOf rule with
    | none => rw [operator] at asks; cases asks
    | some operator_ => cases operator_ <;> simp_all [asksForValue,evaluateValue]
  | false =>
    have body : evaluateValue r v rule = if hasValue v then
        (match normalizeRuleValue r (lookup rule "value") (isNumber v || isText (lookup rule "field") "amount") with
        | .ok ruleValue => compare r (operatorOf rule)
          (normalizeValue r v (isNumber v || isText (lookup rule "field") "amount")) ruleValue rule
        | .error e => .error e) else .ok false := by
      rw [evaluateValue]
      cases operator : operatorOf rule with
      | none => rfl
      | some operator_ => cases operator_ <;> simp_all [asksForValue]
    rw [body]
    cases has : hasValue v with
    | false => simp
    | true =>
      have normalizes := normalizeRuleValue_ok_iff (r := r) (lookup rule "value")
        (isNumber v || isText (lookup rule "field") "amount")
      simp only [if_true,Bool.false_eq_true,false_or,forall_const]
      cases normalized : normalizeRuleValue r (lookup rule "value") (isNumber v || isText (lookup rule "field") "amount") with
      | error e =>
        rw [normalized] at normalizes
        have unconvertible : ¬∀ value, lookup rule "value" = some value → convertible value = true :=
          fun all => by simpa using normalizes.mpr all
        simp only [reduceCtorEq,exists_false,false_iff,not_and]
        exact fun _ => unconvertible
      | ok ruleValue =>
        rw [normalized] at normalizes
        have all := normalizes.mp ⟨_,rfl⟩
        rw [and_iff_left all]
        exact compare_ok_iff asks all

theorem getFieldValues_length (field : String) : (getFieldValues r context field).length ≤ 1 := by
  have follows : ∀ (tokens : List PathToken) (values : List Value), values.length ≤ 1 →
      (tokens.foldl (fun values token => values.filterMap fun v => follow r context v token) values).length ≤ 1 := by
    intro tokens
    induction tokens with
    | nil => exact fun values one => one
    | cons token rest ih => exact fun values one => ih _ ((List.length_filterMap_le _ _).trans one)
  rw [getFieldValues]
  split
  · exact follows _ _ (by simp)
  · cases property context .context field <;> simp

theorem evaluateRule_ok_iff (rule : List (String × Json)) :
    (∃ b, evaluateRule r context rule = .ok b) ↔ EvaluableRule r context rule := by
  have one : ∀ v, ((∃ b, every (fun v => evaluateValue r v rule) [v] = .ok b) ↔ ∃ b, evaluateValue r v rule = .ok b) ∧
      ((∃ b, some_ (fun v => evaluateValue r v rule) [v] = .ok b) ↔ ∃ b, evaluateValue r v rule = .ok b) := by
    intro v
    cases value : evaluateValue r v rule with
    | error e => simp [every,some_,value]
    | ok b => cases b <;> simp [every,some_,value]
  rw [evaluateRule,EvaluableRule]
  cases is : lookup rule "field" with
  | none => simp
  | some field =>
    cases field with
    | string field =>
      have short := @getFieldValues_length r context field
      cases values : getFieldValues r context field with
      | nil =>
        have nothing := (evaluateValue_ok_iff (r := r) .undefined rule).mpr (fun has => by cases has)
        simp [values,nothing]
      | cons v rest =>
        rw [values] at short
        obtain rfl : rest = [] := List.eq_nil_of_length_eq_zero (by simpa using short)
        have tested : (∃ b, evaluateValue r v rule = .ok b) ↔ _ := evaluateValue_ok_iff v rule
        simp only [Option.some.injEq,Json.string.injEq,exists_eq_left',values,List.mem_singleton,forall_eq]
        rw [← tested]
        split
        · exact (one v).1
        · exact (one v).1
        · exact (one v).1
        · exact (one v).2
    | _ => simp

theorem rulesOf_eq (members : List (String × Json)) :
    rulesOf r context members = (lookup members "rules").map (evaluateRules r context) := by
  induction members with
  | nil => simp [rulesOf,lookup]
  | cons member rest ih =>
    obtain ⟨name,value⟩ := member
    rw [rulesOf,lookup_cons,ih,Option.map_or]
    by_cases own : name = "rules"
    · simp [own]
    · simp [own]

theorem evaluateItems_ok_iff (items : List Json) :
    (∃ results, evaluateItems r context items = .ok results) ↔ ∀ item ∈ items, ∃ b, evaluateItem r context item = .ok b := by
  induction items with
  | nil => simp [evaluateItems]
  | cons item rest ih =>
    rw [evaluateItems,List.forall_mem_cons,← ih]
    cases evaluateItem r context item <;> cases evaluateItems r context rest <;> simp

theorem evaluateItem_group {item : Json} (isOne : isGroup item = true) :
    evaluateItem r context item = evaluateRuleGroup r context item := by
  cases item with
  | object members =>
    have array : isArray (lookup members "rules") = true := isOne
    rw [evaluateItem,evaluateRuleGroup,if_pos array]
  | _ => cases isOne

theorem evaluateItem_object {members : List (String × Json)} (single : isGroup (.object members) = false) :
    evaluateItem r context (.object members) = evaluateRule r context members := by
  have notArray : ¬isArray (lookup members "rules") = true := by
    rw [Bool.not_eq_true]
    exact single
  rw [evaluateItem,if_neg notArray]

theorem evaluateItem_rule {item : Json} (single : isGroup item = false) :
    (∃ b, evaluateItem r context item = .ok b) ↔ ∃ rule, item = .object rule ∧ EvaluableRule r context rule := by
  cases item with
  | object members =>
    rw [evaluateItem_object single,evaluateRule_ok_iff]
    simp
  | _ => simp [evaluateItem]

theorem evaluateRules_ok_iff (rules : Json) :
    (∃ results, evaluateRules r context rules = .ok results) ↔
      lengthZero (some rules) = .ok true ∨
        ∃ items, rules = .array items ∧ ∀ item ∈ items, ∃ b, evaluateItem r context item = .ok b := by
  cases rules with
  | array items =>
    rw [evaluateRules,evaluateItems_ok_iff]
    cases items <;> simp [lengthZero]
  | string s => by_cases empty : s = "" <;> simp [evaluateRules,lengthZero,empty]
  | object members =>
    rw [evaluateRules,lengthZero]
    cases lookup members "length" with
    | none => simp
    | some length =>
      cases length with
      | number n => by_cases zero : n = .finite 0 <;> simp [zero]
      | _ => simp
  | _ => simp [evaluateRules,lengthZero]

theorem evaluateRuleGroup_ok_iff (members : List (String × Json)) :
    (∃ b, evaluateRuleGroup r context (.object members) = .ok b) ↔
      ∃ rules, lookup members "rules" = some rules ∧ ∃ results, evaluateRules r context rules = .ok results := by
  rw [evaluateRuleGroup,rulesOf_eq]
  cases lookup members "rules" with
  | none => simp [group]
  | some rules =>
    simp only [Option.map_some,group,Option.some.injEq,exists_eq_left']
    exact map_ok_iff _

/-- Nothing throws if and only if the value is a group in form. -/
theorem evaluates_iff (g : Json) : (∃ b, evaluateRuleGroup r context g = .ok b) ↔ Evaluable r context g := by
  constructor
  · intro evaluates
    induction size : sizeOf g using Nat.strongRecOn generalizing g with
    | ind n ih =>
      cases g with
      | object members =>
        obtain ⟨rules,there,results⟩ := (evaluateRuleGroup_ok_iff members).mp evaluates
        rcases (evaluateRules_ok_iff rules).mp results with zero | ⟨items,rfl,each⟩
        · exact .empty (there ▸ zero)
        · refine .rules there (fun item listed isOne => ?_) fun item listed single =>
            (evaluateItem_rule single).mp (each item listed)
          have smaller : sizeOf item < n := by
            have inItems := List.sizeOf_lt_of_mem listed
            have inMembers := sizeOf_lookup there
            simp only [Json.array.sizeOf_spec] at inMembers
            omega
          have evaluated := each item listed
          rw [evaluateItem_group isOne] at evaluated
          exact ih _ smaller item evaluated rfl
      | _ => simp [evaluateRuleGroup] at evaluates
  · intro evaluable
    induction evaluable with
    | @empty members zero =>
      refine (evaluateRuleGroup_ok_iff members).mpr ?_
      cases there : lookup members "rules" with
      | none => rw [there] at zero; cases zero
      | some rules => exact ⟨rules,rfl,(evaluateRules_ok_iff rules).mpr (.inl (there ▸ zero))⟩
    | @rules members items there groups single ih =>
      refine (evaluateRuleGroup_ok_iff members).mpr ⟨_,there,(evaluateRules_ok_iff _).mpr (.inr ⟨items,rfl,?_⟩)⟩
      intro item listed
      cases kind : isGroup item with
      | true =>
        rw [evaluateItem_group kind]
        exact ih item listed kind
      | false => exact (evaluateItem_rule kind).mpr (single item listed kind)

/-- A preference blocks if and only if there is something and its rules are nothing. -/
theorem shouldAlert_ok_iff (filterRules : Option Json) :
    (∃ b, shouldAlert r context filterRules = .ok b) ↔
      ∀ f, filterRules = some f → truthy f = true → ∃ rules, rulesMember f = some rules ∧ isNull rules = false := by
  cases filterRules with
  | none => simp [shouldAlert]
  | some f =>
    simp only [Option.some.injEq,forall_eq']
    rw [shouldAlert]
    cases truthy f with
    | false => simp
    | true =>
      have looked : (∃ b, lengthZero (rulesMember f) = .ok b) ↔ ∃ rules, rulesMember f = some rules ∧ isNull rules = false := by
        cases rulesMember f with
        | none => simp [lengthZero]
        | some rules =>
          cases rules with
          | object members =>
            simp only [lengthZero,Option.some.injEq,exists_eq_left',isNull]
            split <;> simp
          | _ => simp [lengthZero,isNull]
      simp only [if_true,forall_const]
      rw [← looked]
      cases length : lengthZero (rulesMember f) with
      | error e => simp
      | ok zero =>
        cases zero with
        | true => simp
        | false => cases evaluateRuleGroup r context f <;> simp

end Throws
end StellarAlerts.RulesEngine
