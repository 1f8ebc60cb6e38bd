import StellarAlerts.RuleContexts

/-!
Membership in a list beside equality. A list is asked for the text of what a payment
has, while two values are equal as numbers, as truth values or as texts; so `in` is one
of the single lists (`in_single_iff`) and agrees with `eq` except where a number is
spelled otherwise or a truth value meets its text (`Clash`).
-/
namespace StellarAlerts.RuleOperators
open Numbers RuleContexts
open RulesEngine (Comparable)

def Matches (r : Runtime) (context : Value) (rule : FilterRule) : Prop := evaluateRule r rule context = .ok true

variable {test : Value → Except String Bool}

theorem any_distributes {ι : Type} {list : List ι} {each : ι → Value → Except String Bool}
    (found : ∀ x, test x = .ok true ↔ ∃ v ∈ list, each v x = .ok true)
    (missed : ∀ x, test x = .ok false → ∀ v ∈ list, each v x = .ok false)
    (throws : ∀ x e, test x = .error e → ∀ v ∈ list, each v x = .error e) (values : List Value) :
    any test values = .ok true ↔ ∃ v ∈ list, any (each v) values = .ok true := by
  induction values with
  | nil => simp [any]
  | cons x rest ih =>
    cases tested : test x with
    | error e =>
      simp only [any,tested,reduceCtorEq,false_iff,not_exists,not_and]
      intro v listed
      simp [throws x e tested v listed]
    | ok b =>
      cases b with
      | true =>
        obtain ⟨v,listed,passes⟩ := (found x).mp tested
        simp only [any,tested,true_iff]
        exact ⟨v,listed,by simp [passes]⟩
      | false =>
        simp only [any,tested,ih]
        refine exists_congr fun v => and_congr_right fun listed => ?_
        simp [missed x tested v listed]

variable {test' : Value → Except String Bool}

theorem any_congr {values : List Value} (same : ∀ x ∈ values, test x = test' x) : any test values = any test' values := by
  induction values with
  | nil => rfl
  | cons x rest ih =>
    rw [any,any,same x (by simp),ih fun y listed => same y (by simp [listed])]

theorem every_not (values : List Value) : every (fun x => (test x).map (! ·)) values = (any test values).map (! ·) := by
  induction values with
  | nil => rfl
  | cons x rest ih =>
    rw [every,any,ih]
    cases test x with
    | error e => rfl
    | ok b => cases b <;> rfl

/-- A value that is compared as a number. -/
def numeric (field : String) (x : Value) : Bool := isNumber x || field = "amount"

def isTruth : Value → Bool
  | .bool _ => true
  | _ => false

section
variable (r : Runtime)

/-- The number of what a rule compares with. -/
def numberOf : Scalar → Number
  | .text s => r.texts.double s
  | .number n => n
  | .bool b => .finite (if b then 1 else 0)

def scalarComparable (numeric : Bool) (v : Scalar) : Comparable :=
  if numeric then .number (numberOf r v)
  else
    match v with
    | .bool b => .bool b
    | v => .text (v.toText r)

/-- A value and an item of a list are equal the one way and not the other: as numbers and by their spelling, or a
    truth value and its text. -/
def Clash (field : String) (x : Value) (v : Scalar) : Prop :=
  if numeric field x then ∃ n, toNumber r x = .ok n ∧ (n.same (numberOf r v) = true ↔ r.texts.ofNumber n ≠ v.toText r)
  else toText r x = .ok (v.toText r) ∧ isTruth x ≠ isTruth v.value

end

variable {r : Runtime} {field : String}

theorem normalize_scalar (v : Scalar) (numeric : Bool) :
    normalizeComparable r v.value numeric = .ok (scalarComparable r numeric v) := by
  cases v <;> cases numeric <;>
    simp [normalizeComparable,scalarComparable,Scalar.value,RuleContexts.toNumber,RuleContexts.toText,numberOf,Scalar.toText,Except.map]

theorem in_value (vs : List Scalar) (x : Value) :
    evaluateValue r x ⟨field,.in_,.list vs⟩ = if hasValue x then
      (normalizeComparable r x (numeric field x)).map fun c => (vs.map (Scalar.toText r)).contains (c.toText r.toRuntime)
      else .ok false := by
  obtain ⟨c,always⟩ := ruleValue_ok (r := r) (.list vs) (numeric field x)
  unfold numeric at *
  cases present : hasValue x with
  | false => simp [evaluateValue,present]
  | true =>
    simp only [evaluateValue,present,always,reduceCtorEq,↓reduceIte]
    cases normalizeComparable r x (isNumber x || decide (field = "amount")) <;> rfl

theorem eq_value (v : Scalar) (x : Value) :
    evaluateValue r x ⟨field,.eq,.one v⟩ = if hasValue x then
      (normalizeComparable r x (numeric field x)).map fun c => c.same (scalarComparable r (numeric field x) v) else .ok false := by
  have always := normalize_scalar (r := r) v (numeric field x)
  unfold numeric at *
  cases present : hasValue x with
  | false => simp [evaluateValue,present]
  | true =>
    simp only [evaluateValue,present,RuleValue.value,always,reduceCtorEq,↓reduceIte]
    cases normalizeComparable r x (isNumber x || decide (field = "amount")) <;> rfl

variable {x : Value}

theorem nin_value (vs : List Scalar) (present : hasValue x = true) :
    evaluateValue r x ⟨field,.nin,.list vs⟩ = (evaluateValue r x ⟨field,.in_,.list vs⟩).map (! ·) := by
  obtain ⟨c,always⟩ := ruleValue_ok (r := r) (.list vs) (numeric field x)
  rw [in_value,if_pos present]
  unfold numeric at *
  simp only [evaluateValue,present,always,reduceCtorEq,↓reduceIte]
  cases normalizeComparable r x (isNumber x || decide (field = "amount")) <;> rfl

theorem truth_comparable {c : Comparable} (normalized : normalizeComparable r x false = .ok c) :
    (∃ b, x = .bool b ∧ c = .bool b) ∨ isTruth x = false ∧ ∃ s, toText r x = .ok s ∧ c = .text s := by
  cases x with
  | bool b => exact .inl ⟨b,rfl,(Except.ok.inj normalized).symm⟩
  | _ =>
    refine .inr ⟨rfl,?_⟩
    simp only [normalizeComparable,Bool.false_eq_true,↓reduceIte] at normalized
    revert normalized
    cases toText r _ with
    | error e => intro normalized; cases normalized
    | ok s => exact fun normalized => ⟨s,rfl,(Except.ok.inj normalized).symm⟩

theorem single_agrees (v : Scalar) (present : hasValue x = true) :
    evaluateValue r x ⟨field,.in_,.list [v]⟩ = evaluateValue r x ⟨field,.eq,.one v⟩ ↔ ¬Clash r field x v := by
  rw [in_value,eq_value,if_pos present,if_pos present,Clash]
  cases asNumber : numeric field x with
  | true =>
    simp only [normalizeComparable,↓reduceIte]
    cases toNumber r x with
    | error e => simp [Except.map]
    | ok n =>
      simp only [Except.map,scalarComparable,↓reduceIte,Except.ok.injEq,exists_eq_left',Comparable.toText,Comparable.same,
        List.map_cons,List.map_nil,List.contains_cons,List.contains_nil,Bool.or_false]
      cases n.same (numberOf r v) <;> simp
  | false =>
    cases normalized : normalizeComparable r x false with
    | error e =>
      have textless : toText r x = .error e := by
        cases x with
        | bool b => cases normalized
        | _ =>
          revert normalized
          simp only [normalizeComparable,Bool.false_eq_true,↓reduceIte]
          cases toText r _ <;> simp [Except.map]
      simp [textless,Except.map]
    | ok c =>
      have one : ∀ text, ([v].map (Scalar.toText r)).contains text = decide (text = v.toText r) := by simp
      simp only [Except.map,one,Except.ok.injEq,Bool.false_eq_true,↓reduceIte]
      rw [Bool.eq_iff_iff,decide_eq_true_eq]
      rcases truth_comparable normalized with ⟨b,rfl,rfl⟩ | ⟨truthless,s,textIs,rfl⟩
      · have spelling : ∀ b b' : Bool, ((if b then "true" else "false") = if b' then "true" else "false") ↔ b = b' := by decide
        cases v with
        | bool b' =>
          simp [scalarComparable,Comparable.toText,Comparable.same,RuleContexts.toText,Scalar.toText,isTruth,Scalar.value,spelling]
        | _ =>
          simp [scalarComparable,Comparable.toText,Comparable.same,RuleContexts.toText,Scalar.toText,isTruth,Scalar.value]
      · rw [textIs,truthless]
        cases v <;> simp [scalarComparable,Comparable.toText,Comparable.same,Scalar.toText,isTruth,Scalar.value]

theorem evaluateRule_any (rule : FilterRule) (context : Value) (asks : rule.operator = .in_ ∨ rule.operator = .eq) :
    evaluateRule r rule context = any (fun x => evaluateValue r x rule) (getFieldValues r rule context) := by
  obtain ⟨field,operator,value⟩ := rule
  unfold evaluateRule
  rcases asks with rfl | rfl <;>
  · cases getFieldValues r _ context with
    | nil => rfl
    | cons x rest => rfl

theorem evaluateRule_nin (vs : List Scalar) (context : Value) {rest : List Value}
    (values : getFieldValues r ⟨field,.nin,.list vs⟩ context = x :: rest) :
    evaluateRule r ⟨field,.nin,.list vs⟩ context =
      every (fun x => evaluateValue r x ⟨field,.nin,.list vs⟩) (x :: rest) := by
  unfold evaluateRule
  rw [values]
  rfl

theorem in_single_iff (context : Value) (vs : List Scalar) :
    Matches r context ⟨field,.in_,.list vs⟩ ↔ ∃ v ∈ vs, Matches r context ⟨field,.in_,.list [v]⟩ := by
  have asAny : ∀ vs, evaluateRule r ⟨field,.in_,.list vs⟩ context =
      any (fun x => evaluateValue r x ⟨field,.in_,.list vs⟩) (getFieldValues r ⟨field,.in_,.list vs⟩ context) :=
    fun vs => evaluateRule_any _ context (.inl rfl)
  simp only [Matches,asAny]
  refine any_distributes (fun x => ?_) (fun x missed v listed => ?_) (fun x e thrown v listed => ?_) _
  · rw [in_value]
    cases present : hasValue x with
    | false => simp [in_value,present]
    | true =>
      cases normalized : normalizeComparable r x (numeric field x) with
      | error e => simp [in_value,present,normalized,Except.map]
      | ok c => simp [in_value,present,normalized,Except.map,eq_comm]
  · rw [in_value] at missed ⊢
    cases present : hasValue x with
    | false => rfl
    | true =>
      rw [if_pos present] at missed
      cases normalized : normalizeComparable r x (numeric field x) with
      | error e => rw [normalized] at missed; cases missed
      | ok c =>
        rw [normalized] at missed
        have outside : ∀ w ∈ vs, ¬c.toText r.toRuntime = w.toText r := by
          intro w inside same
          have found := Except.ok.inj missed
          simp only [List.contains_eq_mem,decide_eq_false_iff_not,List.mem_map,not_exists,not_and] at found
          exact found w inside same.symm
        simp [Except.map,outside v listed]
  · rw [in_value] at thrown ⊢
    cases present : hasValue x with
    | false => rw [present] at thrown; cases thrown
    | true =>
      rw [if_pos present] at thrown
      cases normalized : normalizeComparable r x (numeric field x) with
      | error e' =>
        rw [normalized] at thrown
        cases thrown
        rfl
      | ok c => rw [normalized] at thrown; cases thrown

theorem single_iff_eq (context : Value) (v : Scalar)
    (clear : ∀ x ∈ getFieldValues r ⟨field,.eq,.one v⟩ context, hasValue x = true → ¬Clash r field x v) :
    Matches r context ⟨field,.in_,.list [v]⟩ ↔ Matches r context ⟨field,.eq,.one v⟩ := by
  rw [Matches,Matches,evaluateRule_any ⟨field,.in_,.list [v]⟩ context (.inl rfl),
    evaluateRule_any ⟨field,.eq,.one v⟩ context (.inr rfl)]
  refine Eq.congr (any_congr fun x listed => ?_) rfl
  by_cases present : hasValue x = true
  · exact (single_agrees v present).mpr (clear x listed present)
  · rw [in_value,eq_value,if_neg present,if_neg present]

theorem every_passes {values : List Value} (all : every test values = .ok true) : ∀ x ∈ values, test x = .ok true := by
  induction values with
  | nil => exact fun x listed => nomatch listed
  | cons y rest ih =>
    rw [every] at all
    cases tested : test y with
    | error e => rw [tested] at all; cases all
    | ok b =>
      cases b with
      | false => rw [tested] at all; cases all
      | true =>
        rw [tested] at all
        intro x listed
        rcases List.mem_cons.mp listed with rfl | later
        · exact tested
        · exact ih all x later

theorem every_congr {values : List Value} (same : ∀ x ∈ values, test x = test' x) :
    every test values = every test' values := by
  induction values with
  | nil => rfl
  | cons x rest ih => rw [every,every,same x (by simp),ih fun y listed => same y (by simp [listed])]

theorem nin_negates (context : Value) (vs : List Scalar) (some_ : getFieldValues r ⟨field,.in_,.list vs⟩ context ≠ [])
    (present : ∀ x ∈ getFieldValues r ⟨field,.in_,.list vs⟩ context, hasValue x = true) :
    evaluateRule r ⟨field,.nin,.list vs⟩ context = (evaluateRule r ⟨field,.in_,.list vs⟩ context).map (! ·) := by
  rw [evaluateRule_any ⟨field,.in_,.list vs⟩ context (.inl rfl),← every_not]
  obtain ⟨x,rest,values⟩ := List.exists_cons_of_ne_nil some_
  rw [evaluateRule_nin vs context values]
  rw [values] at present ⊢
  exact every_congr fun y listed => nin_value vs (present y listed)

theorem nin_missing (context : Value) (vs : List Scalar) (missing : getFieldValues r ⟨field,.in_,.list vs⟩ context = [] ∨
    ∃ x ∈ getFieldValues r ⟨field,.in_,.list vs⟩ context, hasValue x = false) : ¬Matches r context ⟨field,.nin,.list vs⟩ := by
  intro matched
  cases values : getFieldValues r ⟨field,.in_,.list vs⟩ context with
  | nil =>
    have none_ : getFieldValues r ⟨field,.nin,.list vs⟩ context = [] := values
    rw [Matches,evaluateRule,none_] at matched
    cases matched
  | cons y rest =>
    rw [Matches,evaluateRule_nin vs context values] at matched
    obtain ⟨x,listed,absent⟩ := missing.resolve_left (by rw [values]; exact List.cons_ne_nil y rest)
    have passed := every_passes matched x (values ▸ listed)
    simp [evaluateValue,absent] at passed

/-- Membership asks each item for its spelling: a list matches as one of its items does, and as equality with one of
    them where no value clashes with an item. Not being in it is the negation where the field has values and
    none is missing, and never matches elsewhere. -/
theorem membership_laws (r : Runtime) (context : Value) (field : String) (vs : List Scalar) :
    (Matches r context ⟨field,.in_,.list vs⟩ ↔ ∃ v ∈ vs, Matches r context ⟨field,.in_,.list [v]⟩) ∧
    ((∀ x ∈ getFieldValues r ⟨field,.in_,.list vs⟩ context, hasValue x = true → ∀ v ∈ vs, ¬Clash r field x v) →
      (Matches r context ⟨field,.in_,.list vs⟩ ↔ ∃ v ∈ vs, Matches r context ⟨field,.eq,.one v⟩)) ∧
    (getFieldValues r ⟨field,.in_,.list vs⟩ context ≠ [] →
      (∀ x ∈ getFieldValues r ⟨field,.in_,.list vs⟩ context, hasValue x = true) →
      evaluateRule r ⟨field,.nin,.list vs⟩ context = (evaluateRule r ⟨field,.in_,.list vs⟩ context).map (! ·)) ∧
    ((getFieldValues r ⟨field,.in_,.list vs⟩ context = [] ∨
      ∃ x ∈ getFieldValues r ⟨field,.in_,.list vs⟩ context, hasValue x = false) → ¬Matches r context ⟨field,.nin,.list vs⟩) := by
  refine ⟨in_single_iff context vs,fun clear => ?_,nin_negates context vs,nin_missing context vs⟩
  rw [in_single_iff]
  refine exists_congr fun v => and_congr_right fun listed => ?_
  exact single_iff_eq context v fun x found present => clear x found present v listed

/-- A runtime for contexts without numbers and objects. -/
def plainRuntime : Runtime where
  texts := ⟨fun _ => .nan,fun _ => "NaN",fun s => s⟩
  ofFunction _ := "function"
  inherited _ _ := none
  ofObject _ := .ok "[object Object]"
  objectNumber _ := .ok .nan

/-- A truth value is found in a list by its text and is not equal to it, and a value that is missing is neither in a list
    nor outside it. -/
theorem membership_differs : ¬∀ (r : Runtime) (context : Value) (field : String) (vs : List Scalar),
    (Matches r context ⟨field,.in_,.list vs⟩ ↔ ∃ v ∈ vs, Matches r context ⟨field,.eq,.one v⟩) ∧
      (Matches r context ⟨field,.nin,.list vs⟩ ↔ ¬Matches r context ⟨field,.in_,.list vs⟩) := by
  intro claimed
  have law := (claimed plainRuntime (PaymentContext.value ⟨.inr "10","XLM",[("flagged",.bool true)]⟩) "flagged" [.text "true"]).1
  obtain ⟨v,listed,equal⟩ := law.mp rfl
  obtain rfl := List.mem_singleton.mp listed
  cases equal

end StellarAlerts.RuleOperators
