import StellarAlerts.DecimalAmounts
import StellarAlerts.Groups
import StellarAlerts.RiskScorer
import StellarAlerts.Utf16Text

/-!
The whole assessment of the triggered indicators: beside the score, what each category
weighs, how many indicators there are of each severity, and what to do. All of it is
computed of the indicators that are left when each code counts once, so it adds
up (`assessment_reconciles`).
-/
namespace StellarAlerts.RiskAssessment
open DecimalAmounts FirstOfKey Groups Numbers OrderedMaps RiskScorer Utf16Text

inductive IndicatorCategory where
  | footprint
  | drain
  | contract
  | envelope
deriving DecidableEq, Repr

/-- What the assessment reads of an indicator. -/
structure TriggeredIndicator extends RiskIndicator String where
  category : IndicatorCategory
  remediation : String
deriving DecidableEq

structure RiskCategoryBreakdown where
  category : IndicatorCategory
  score : ℚ
  sharePercent : String
  indicatorCount : Nat
  worstSeverity : RiskSeverity
  codes : List String
deriving DecidableEq

structure Assessment extends ThreatRiskAssessment where
  breakdown : List RiskCategoryBreakdown
  severityCounts : RiskSeverity → Nat
  summary : String
  actions : List String

def categoryText : IndicatorCategory → String
  | .footprint => "footprint"
  | .drain => "drain"
  | .contract => "contract"
  | .envelope => "envelope"

def bandText : RiskBand → String
  | .safe => "SAFE"
  | .low => "LOW"
  | .moderate => "MODERATE"
  | .high => "HIGH"
  | .critical => "CRITICAL"

/-- The place in the order of severities. -/
def severityRank : RiskSeverity → Nat
  | .info => 0
  | .low => 1
  | .medium => 2
  | .high => 3
  | .critical => 4

def triggeredWeight (i : TriggeredIndicator) : ℚ := weightOf i.toRiskIndicator

/-- Each code once, with its first indicator. -/
def dedupe (indicators : List TriggeredIndicator) : List TriggeredIndicator :=
  firsts (fun _ => true) (fun i => i.code) indicators

def worstSeverityOf (severities : List RiskSeverity) : RiskSeverity :=
  severities.foldl (fun worst severity => if severityRank worst < severityRank severity then severity else worst) .info

/-- `BigInt(x)`; none where the number is no integer and a RangeError is thrown. -/
def toBigInt (x : ℚ) : Option Int := if x.den = 1 then some x.num else none

def share (score total : ℚ) : Option Int :=
  if 0 < total then
    match toBigInt score, toBigInt (max 1 total) with
    | some score, some total => some ((score * RATIO_SCALE).tdiv total)
    | _, _ => none
  else some 0

section Assessing
variable (localeCompare : String → String → Ordering)

def categoryBreakdown (total : ℚ) (category : IndicatorCategory) (indicators : List TriggeredIndicator) :
    Option RiskCategoryBreakdown :=
  let score := (indicators.map triggeredWeight).sum
  (share score total).map fun ratio =>
    { category
      score
      sharePercent := formatRatioAsPercent ratio
      indicatorCount := indicators.length
      worstSeverity := worstSeverityOf (indicators.map fun i => i.severity)
      codes := sortTexts (indicators.map fun i => i.code) }

/-- The categories by falling score, then by name; none where a share cannot be computed. -/
def buildBreakdown (indicators : List TriggeredIndicator) : Option (List RiskCategoryBreakdown) :=
  let total := (indicators.map triggeredWeight).sum
  ((groups (fun i => i.category) indicators).entries.mapM fun e => categoryBreakdown total e.1 e.2).map fun breakdown =>
    breakdown.mergeSort fun a b =>
      b.score < a.score || a.score = b.score && localeCompare (categoryText a.category) (categoryText b.category) != .gt

def moreUrgent (a b : TriggeredIndicator) : Bool :=
  severityRank b.severity < severityRank a.severity || severityRank a.severity = severityRank b.severity &&
    (triggeredWeight b < triggeredWeight a || triggeredWeight a = triggeredWeight b && localeCompare a.code b.code != .gt)

def buildActions (indicators : List TriggeredIndicator) : List String :=
  (firsts (fun i => i.remediation ≠ "") (fun i => i.remediation) (indicators.mergeSort (moreUrgent localeCompare))).map fun i =>
    i.remediation

def countSeverities (indicators : List TriggeredIndicator) (severity : RiskSeverity) : Nat :=
  indicators.countP fun i => i.severity = severity
def plural (count : Nat) : String := if count = 1 then "" else "s"

def buildSummary (score : Int) (band : RiskBand) (indicators : List TriggeredIndicator) (breakdown : List RiskCategoryBreakdown) :
    String :=
  let headline := "Threat score " ++ toString score ++ "/100 (" ++ bandText band ++ ")"
  if indicators.isEmpty then headline ++ ": no drain, footprint, contract, or envelope indicators triggered."
  else
    let criticalCount := countSeverities indicators .critical
    let categoryText := match breakdown with
      | top :: _ => " driven mainly by " ++ categoryText top.category ++ " (" ++ toString top.score.num ++ " pts across " ++
        toString top.codes.length ++ " indicator" ++ plural top.codes.length ++ ")"
      | [] => ""
    let criticalText :=
      if 0 < criticalCount then " " ++ toString criticalCount ++ " critical indicator" ++ plural criticalCount ++ " present." else ""
    headline ++ categoryText ++ "." ++ criticalText

/-- The assessment; none where a RangeError is thrown. -/
def assessRisk (indicators : List TriggeredIndicator) (blockThreshold : Option Number) : Option Assessment :=
  let deduped := dedupe indicators
  let risk := scoreRisk (indicators.map TriggeredIndicator.toRiskIndicator) blockThreshold
  (buildBreakdown localeCompare deduped).map fun breakdown =>
    { risk with
      breakdown
      severityCounts := countSeverities deduped
      summary := buildSummary risk.score risk.band deduped breakdown
      actions := buildActions localeCompare deduped }

def assertScoreReconciliation (assessment : Assessment) : Bool :=
  let categoryTotal := (assessment.breakdown.map RiskCategoryBreakdown.score).sum
  (assessment.score : ℚ) ≤ categoryTotal && min 100 categoryTotal ≤ (assessment.score : ℚ)

section Deduplication

theorem foldl_keep_map {α β κ : Type*} [DecidableEq κ] (f : α → β) (key : β → κ) (list kept : List α) :
    (list.map f).foldl (keep (fun _ => true) key) (kept.map f) =
      (list.foldl (keep (fun _ => true) fun a => key (f a)) kept).map f := by
  induction list generalizing kept with
  | nil => rfl
  | cons a rest ih =>
    have step : keep (fun _ => true) key (kept.map f) (f a) = (keep (fun _ => true) (fun a => key (f a)) kept a).map f := by
      simp only [keep,Bool.true_and,List.all_map,Function.comp_def]
      by_cases new : (kept.all fun b => key (f b) ≠ key (f a)) = true
      · rw [if_pos new,if_pos new,List.map_append,List.map_singleton]
      · rw [if_neg new,if_neg new]
    rw [List.map_cons,List.foldl_cons,List.foldl_cons,step,ih]

theorem dedupe_map (indicators : List TriggeredIndicator) :
    dedupeIndicators (indicators.map TriggeredIndicator.toRiskIndicator) =
      (dedupe indicators).map TriggeredIndicator.toRiskIndicator :=
  foldl_keep_map TriggeredIndicator.toRiskIndicator RiskIndicator.code indicators []

theorem total_eq (indicators : List TriggeredIndicator) :
    rawTotal (indicators.map TriggeredIndicator.toRiskIndicator) = ((dedupe indicators).map triggeredWeight).sum := by
  rw [rawTotal,dedupe_map,List.map_map]
  rfl

theorem dedupe_codes (indicators : List TriggeredIndicator) : ((dedupe indicators).map fun i => i.code).Nodup :=
  firsts_keys_nodup indicators

end Deduplication
end Assessing

section Reconciliation
variable {indicators : List TriggeredIndicator} {weight : TriggeredIndicator → Nat}

theorem toBigInt_natCast (n : Nat) : toBigInt n = some (n : Int) := by simp [toBigInt]

theorem weight_of_declared {i : TriggeredIndicator} (declared : i.weight = .finite (weight i)) : triggeredWeight i = weight i := by
  have some_ : (0 : ℚ) ≤ weight i := Nat.cast_nonneg _
  rw [triggeredWeight,weightOf,declared]
  exact if_pos some_

theorem sum_of_declared {list : List TriggeredIndicator} (declared : ∀ i ∈ list, i.weight = .finite (weight i)) :
    (list.map triggeredWeight).sum = ((list.map weight).sum : Nat) := by
  induction list with
  | nil => simp
  | cons i rest ih =>
    have others := ih fun j listed => declared j (by simp [listed])
    rw [List.map_cons,List.sum_cons,others,weight_of_declared (declared i (by simp)),List.map_cons,List.sum_cons,Nat.cast_add]

theorem share_some (score total : Nat) : ∃ ratio, share score total = some ratio := by
  have atLeast : max 1 (total : ℚ) = ((max 1 total : Nat) : ℚ) := by
    rw [Nat.cast_max,Nat.cast_one]
  rw [share,atLeast,toBigInt_natCast,toBigInt_natCast]
  by_cases some_ : (0 : ℚ) < total
  · exact ⟨_,if_pos some_⟩
  · exact ⟨_,if_neg some_⟩

theorem mapM_some {α β : Type*} {f : α → Option β} {list : List α} (gives : ∀ a ∈ list, ∃ b, f a = some b) :
    ∃ results, list.mapM f = some results ∧ List.Forall₂ (fun a b => f a = some b) list results := by
  induction list with
  | nil => exact ⟨[],rfl,.nil⟩
  | cons a rest ih =>
    obtain ⟨b,first⟩ := gives a (by simp)
    obtain ⟨results,others,each⟩ := ih fun a' listed => gives a' (by simp [listed])
    exact ⟨b :: results,by simp [first,others],.cons first each⟩

/-- The category of a group, with its score and its codes. -/
structure Sums (e : IndicatorCategory × List TriggeredIndicator) (b : RiskCategoryBreakdown) : Prop where
  category : b.category = e.1
  score : b.score = (e.2.map triggeredWeight).sum
  codes : b.codes = sortTexts (e.2.map fun i => i.code)

theorem categoryBreakdown_sums {total : ℚ} {category : IndicatorCategory} {list : List TriggeredIndicator}
    {b : RiskCategoryBreakdown} (made : categoryBreakdown total category list = some b) : Sums (category,list) b := by
  obtain ⟨ratio,-,rfl⟩ := Option.map_eq_some_iff.mp made
  exact ⟨rfl,rfl,rfl⟩

theorem breakdown_made (localeCompare : String → String → Ordering) (declared : ∀ i ∈ indicators, i.weight = .finite (weight i)) :
    ∃ breakdown results, buildBreakdown localeCompare indicators = some breakdown ∧ breakdown.Perm results ∧
      List.Forall₂ (fun e b => categoryBreakdown (indicators.map triggeredWeight).sum e.1 e.2 = some b)
        (groups (fun i => i.category) indicators).entries results := by
  have each : ∀ e ∈ (groups (fun i => i.category) indicators).entries,
      ∃ b, categoryBreakdown (indicators.map triggeredWeight).sum e.1 e.2 = some b := by
    intro e member
    have own : ∀ i ∈ e.2, i.weight = .finite (weight i) := by
      intro i listed
      rw [group_eq member] at listed
      exact declared i (List.mem_filter.mp listed).1
    obtain ⟨ratio,is⟩ := share_some ((e.2.map weight).sum) ((indicators.map weight).sum)
    rw [categoryBreakdown,sum_of_declared own,sum_of_declared declared,is]
    exact ⟨_,rfl⟩
  obtain ⟨results,made,each⟩ := mapM_some each
  exact ⟨_,results,by rw [buildBreakdown,made]; rfl,List.mergeSort_perm _ _,each⟩

theorem mem_of_forall₂ {α β : Type*} {r : α → β → Prop} {list : List α} {results : List β} (each : List.Forall₂ r list results)
    {b : β} (member : b ∈ results) : ∃ a ∈ list, r a b := by
  induction each with
  | nil => cases member
  | cons first _ ih =>
    rcases List.mem_cons.mp member with rfl | later
    · exact ⟨_,by simp,first⟩
    · obtain ⟨a,listed,related⟩ := ih later
      exact ⟨a,by simp [listed],related⟩

variable {entries : List (IndicatorCategory × List TriggeredIndicator)} {results : List RiskCategoryBreakdown}

theorem scores_sum (sums : List.Forall₂ Sums entries results) :
    (results.map RiskCategoryBreakdown.score).sum = ((entries.flatMap Prod.snd).map triggeredWeight).sum := by
  induction sums with
  | nil => rfl
  | cons first _ ih =>
    rw [List.map_cons,List.sum_cons,ih,List.flatMap_cons,List.map_append,List.sum_append,first.score]

theorem codes_perm (sums : List.Forall₂ Sums entries results) :
    (results.flatMap RiskCategoryBreakdown.codes).Perm ((entries.flatMap Prod.snd).map fun i => i.code) := by
  induction sums with
  | nil => exact .nil
  | cons first _ ih =>
    rw [List.flatMap_cons,List.flatMap_cons,List.map_append,first.codes]
    exact (List.mergeSort_perm _ _).append ih

theorem countSeverities_sum (list : List TriggeredIndicator) :
    countSeverities list .critical + countSeverities list .high + countSeverities list .medium + countSeverities list .low +
      countSeverities list .info = list.length := by
  simp only [countSeverities]
  induction list with
  | nil => rfl
  | cons i rest ih =>
    simp only [List.countP_cons,List.length_cons]
    cases severity : i.severity <;> simp <;> omega

/-- Of indicators with natural weights, the score, the categories, their codes and the severities account for the same:
    for each code once. -/
theorem assessment_reconciles (localeCompare : String → String → Ordering) (blockThreshold : Option Number)
    (declared : ∀ i ∈ indicators, i.weight = .finite (weight i)) :
    ∃ a, assessRisk localeCompare indicators blockThreshold = some a ∧
      a.score = min 100 (((dedupe indicators).map weight).sum : Int) ∧
      (a.breakdown.map RiskCategoryBreakdown.score).sum = (((dedupe indicators).map weight).sum : Nat) ∧
      (a.breakdown.flatMap RiskCategoryBreakdown.codes).Perm ((dedupe indicators).map fun i => i.code) ∧
      (∀ i ∈ dedupe indicators, ∃! b, b ∈ a.breakdown ∧ i.code ∈ b.codes) ∧
      a.severityCounts .critical + a.severityCounts .high + a.severityCounts .medium + a.severityCounts .low +
        a.severityCounts .info = (dedupe indicators).length ∧
      assertScoreReconciliation a = true := by
  have kept : ∀ i ∈ dedupe indicators, i.weight = .finite (weight i) := fun i member =>
    declared i (mem_of_mem_firsts member).1
  obtain ⟨breakdown,results,made,order,each⟩ := breakdown_made localeCompare kept
  have sums : List.Forall₂ Sums (groups (fun i => i.category) (dedupe indicators)).entries results :=
    each.imp fun e b is => categoryBreakdown_sums is
  have total := sum_of_declared kept
  have categories : (breakdown.map RiskCategoryBreakdown.score).sum = (((dedupe indicators).map weight).sum : Nat) := by
    rw [(order.map _).sum_eq,scores_sum sums,((groups_perm _).map _).sum_eq,total]
  have codes : (breakdown.flatMap RiskCategoryBreakdown.codes).Perm ((dedupe indicators).map fun i => i.code) :=
    ((order.flatMap_right _).trans (codes_perm sums)).trans ((groups_perm _).map _)
  have score : (scoreRisk (indicators.map TriggeredIndicator.toRiskIndicator) blockThreshold).score =
      min 100 (((dedupe indicators).map weight).sum : Int) :=
    score_of_total (by rw [total_eq,total]) blockThreshold
  -- A category that shows the code of an indicator is the one of its group.
  have groupOf : ∀ i ∈ dedupe indicators, ∀ b ∈ breakdown, i.code ∈ b.codes →
      ∃ group, (i.category,group) ∈ (groups (fun i => i.category) (dedupe indicators)).entries ∧
        categoryBreakdown ((dedupe indicators).map triggeredWeight).sum i.category group = some b := by
    intro i member b listed own
    obtain ⟨⟨category,group⟩,entry,is⟩ := mem_of_forall₂ each (order.subset listed)
    rw [(categoryBreakdown_sums is).codes,mem_sortTexts] at own
    obtain ⟨j,inGroup,sameCode⟩ := List.mem_map.mp own
    rw [group_eq entry,List.mem_filter] at inGroup
    obtain rfl : j = i := List.inj_on_of_nodup_map (dedupe_codes indicators) inGroup.1 member sameCode
    have ofCategory : j.category = category := by simpa using inGroup.2
    exact ⟨group,ofCategory ▸ entry,ofCategory ▸ is⟩
  refine ⟨_,by rw [assessRisk,made]; rfl,score,categories,codes,?_,countSeverities_sum _,?_⟩
  · intro i member
    obtain ⟨b,listed,own⟩ := List.mem_flatMap.mp (codes.mem_iff.mpr (List.mem_map_of_mem (f := fun i => i.code) member))
    obtain ⟨group,entry,is⟩ := groupOf i member b listed own
    refine ⟨b,⟨listed,own⟩,?_⟩
    rintro b' ⟨listed',own'⟩
    obtain ⟨group',entry',is'⟩ := groupOf i member b' listed' own'
    rw [group_eq entry',← group_eq entry,is] at is'
    exact (Option.some.inj is').symm
  · have reported : (((scoreRisk (indicators.map TriggeredIndicator.toRiskIndicator) blockThreshold).score : Int) : ℚ) =
        min 100 ((((dedupe indicators).map weight).sum : Nat) : ℚ) := by
      rw [score,Int.cast_min,Int.cast_ofNat,Int.cast_natCast]
    simp only [assertScoreReconciliation,categories,reported,Bool.and_eq_true,decide_eq_true_eq]
    exact ⟨min_le_right _ _,le_refl _⟩

/-- Two rules of one category, one of them repeated, and one of another. -/
theorem assessment_reconciles_repeated :
    let drain : TriggeredIndicator := ⟨⟨"FULL_BALANCE_DRAIN",.critical,.finite 60⟩,.drain,"Block execution."⟩
    let dust : TriggeredIndicator := ⟨⟨"DUST_AMOUNT_TRANSFER",.medium,.finite 10⟩,.drain,"Confirm each dust send."⟩
    let zeroFee : TriggeredIndicator := ⟨⟨"ZERO_FEE_SOROBAN_ENVELOPE",.low,.finite 5⟩,.envelope,"Set a fee ceiling."⟩
    ∃ a, assessRisk (fun _ _ => .eq) [drain,dust,drain,zeroFee] none = some a ∧ a.score = 75 ∧
      assertScoreReconciliation a = true := by
  intro drain dust zeroFee
  let weight : TriggeredIndicator → Nat := fun i => if i.severity = .critical then 60 else if i.severity = .medium then 10 else 5
  have declared : ∀ i ∈ [drain,dust,drain,zeroFee], i.weight = .finite (weight i) := by decide
  obtain ⟨a,assessed,score,-,-,-,-,reconciles⟩ := assessment_reconciles (fun _ _ => .eq) none declared
  exact ⟨a,assessed,score.trans (by decide),reconciles⟩

end Reconciliation
end StellarAlerts.RiskAssessment
