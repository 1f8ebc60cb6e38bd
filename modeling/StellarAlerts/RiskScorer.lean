import Mathlib.Algebra.BigOperators.Group.Finset.Piecewise
import Mathlib.Data.Fintype.Basic
import StellarAlerts.FirstOfKey
import StellarAlerts.Numbers

/-!
The score of triggered risk indicators. Every code counts once, with the weight of its
first indicator, so the score is a sum over the codes (`rawTotal_eq`), cut at 100, and a
code whose indicators all weigh the same counts that or nothing (`firstWeight_of_const`).
-/
namespace StellarAlerts.RiskScorer
open FirstOfKey Numbers
universe u

inductive RiskSeverity where
  | critical
  | high
  | medium
  | low
  | info
deriving DecidableEq, Repr

inductive RiskBand where
  | safe
  | low
  | moderate
  | high
  | critical
deriving DecidableEq, Repr

structure RiskIndicator (Code : Type u) where
  code : Code
  severity : RiskSeverity
  weight : Number
deriving DecidableEq

structure ThreatRiskAssessment where
  score : Int
  band : RiskBand
  blockThreshold : Number
  blockExecution : Bool
deriving DecidableEq

def severityWeight : RiskSeverity → ℚ
  | .critical => 40
  | .high => 25
  | .medium => 12
  | .low => 5
  | .info => 0

def scoreToBand (score : Int) : RiskBand :=
  let bounded := max 0 (min 100 score)
  if 80 ≤ bounded then .critical
  else if 60 ≤ bounded then .high
  else if 40 ≤ bounded then .moderate
  else if 20 ≤ bounded then .low
  else .safe

variable {Code : Type u} [DecidableEq Code]

/-- The declared weight, or that of the severity. -/
def weightOf (indicator : RiskIndicator Code) : ℚ :=
  match indicator.weight with
  | .finite q => if 0 ≤ q then q else severityWeight indicator.severity
  | _ => severityWeight indicator.severity

def dedupeIndicators (indicators : List (RiskIndicator Code)) : List (RiskIndicator Code) :=
  firsts (fun _ => true) RiskIndicator.code indicators

/-- `Math.max(0, Math.min(100, x))`. -/
def clamp : Number → Number
  | .nan => .nan
  | .infinite negative => .finite (if negative then 0 else 100)
  | .finite q => .finite (max 0 (min 100 q))

/-- `score >= x`. -/
def reaches (score : Int) : Number → Bool
  | .nan => false
  | .infinite negative => negative
  | .finite q => q ≤ score

def rawTotal (indicators : List (RiskIndicator Code)) : ℚ := ((dedupeIndicators indicators).map weightOf).sum

def scoreRisk (indicators : List (RiskIndicator Code)) (blockThreshold : Option Number) : ThreatRiskAssessment :=
  let threshold := clamp (blockThreshold.getD (.finite 80))
  let score := min 100 (max 0 (round (rawTotal indicators)))
  { score
    band := scoreToBand score
    blockThreshold := threshold
    blockExecution := reaches score threshold }

def first (indicators : List (RiskIndicator Code)) (code : Code) : Option (RiskIndicator Code) :=
  indicators.find? fun i => i.code = code
def firstWeight (indicators : List (RiskIndicator Code)) (code : Code) : ℚ := (first indicators code).elim 0 weightOf
theorem first_append (list more : List (RiskIndicator Code)) (code : Code) :
    first (list ++ more) code = (first list code).or (first more code) := List.find?_append
theorem first_singleton (i : RiskIndicator Code) (code : Code) : first [i] code = if i.code = code then some i else none := by
  simp [first,List.find?_singleton]

variable {indicators : List (RiskIndicator Code)}

theorem first_eq_none {code : Code} : first indicators code = none ↔ ∀ i ∈ indicators, i.code ≠ code := by
  simp [first]

variable {i : RiskIndicator Code}

theorem first_eq_some {code : Code} (found : first indicators code = some i) : i ∈ indicators ∧ i.code = code := by
  refine ⟨List.mem_of_find?_eq_some found,?_⟩
  simpa using List.find?_some found

theorem firstWeight_of_const {code : Code} {weight : ℚ} (const : ∀ i ∈ indicators, i.code = code → weightOf i = weight) :
    firstWeight indicators code = if ∃ i ∈ indicators, i.code = code then weight else 0 := by
  rw [firstWeight]
  cases found : first indicators code with
  | none =>
    have absent := first_eq_none.mp found
    rw [if_neg fun ⟨i,listed,own⟩ => absent i listed own]
    rfl
  | some i =>
    obtain ⟨listed,own⟩ := first_eq_some found
    rw [if_pos ⟨i,listed,own⟩]
    exact const i listed own

theorem mem_dedupe_iff : i ∈ dedupeIndicators indicators ↔ first indicators i.code = some i := by
  have kept_of_first : ∀ j, first indicators j.code = some j → j ∈ dedupeIndicators indicators := by
    intro j found
    refine find_mem_firsts (k := j.code) ?_
    simpa [first] using found
  constructor
  · intro kept
    cases found : first indicators i.code with
    | none => exact absurd rfl (first_eq_none.mp found i (mem_of_mem_firsts kept).1)
    | some j =>
      have own := (first_eq_some found).2
      rw [eq_of_key (kept_of_first j (own ▸ found)) kept own]
  · exact kept_of_first i

theorem dedupe_concat (list : List (RiskIndicator Code)) (last : RiskIndicator Code) :
    dedupeIndicators (list ++ [last]) =
      if first list last.code = none then dedupeIndicators list ++ [last] else dedupeIndicators list := by
  have step : dedupeIndicators (list ++ [last]) = keep (fun _ => true) RiskIndicator.code (dedupeIndicators list) last :=
    firsts_concat list last
  rw [step,keep]
  cases found : first list last.code with
  | none =>
    have new : ∀ i ∈ dedupeIndicators list, i.code ≠ last.code := fun i kept =>
      first_eq_none.mp found i (mem_of_mem_firsts kept).1
    simpa using new
  | some j =>
    have own := (first_eq_some found).2
    have kept : j ∈ dedupeIndicators list := mem_dedupe_iff.mpr (own ▸ found)
    simpa using ⟨j,kept,own⟩

theorem rawTotal_eq [Fintype Code] (indicators : List (RiskIndicator Code)) :
    rawTotal indicators = ∑ code, firstWeight indicators code := by
  induction indicators using List.reverseRecOn with
  | nil => simp [rawTotal,dedupeIndicators,firsts,firstWeight,first]
  | append_singleton list last ih =>
    rw [rawTotal] at ih ⊢
    rw [dedupe_concat]
    cases found : first list last.code with
    | none =>
      have added : weightOf last = ∑ code, if last.code = code then weightOf last else 0 := by
        rw [Finset.sum_ite_eq,if_pos (Finset.mem_univ _)]
      rw [if_pos rfl,List.map_append,List.sum_append,ih,List.map_singleton,List.sum_singleton,added,
        ← Finset.sum_add_distrib]
      refine Finset.sum_congr rfl fun code _ => ?_
      rw [firstWeight,firstWeight,first_append,first_singleton]
      by_cases own : last.code = code
      · rw [← own,found]
        simp
      · simp [own]
    | some j =>
      rw [if_neg (by simp),ih]
      refine Finset.sum_congr rfl fun code _ => ?_
      rw [firstWeight,firstWeight,first_append,first_singleton]
      by_cases own : last.code = code
      · rw [← own,found]
        simp
      · simp [own]

theorem score_of_total {total : ℕ} (is : rawTotal indicators = total) (blockThreshold : Option Number) :
    (scoreRisk indicators blockThreshold).score = min 100 (total : Int) := by
  rw [scoreRisk,is]
  simp only [round_natCast]
  omega

theorem blocks_of_le {indicators' : List (RiskIndicator Code)} {blockThreshold : Option Number}
    (higher : (scoreRisk indicators blockThreshold).score ≤ (scoreRisk indicators' blockThreshold).score)
    (blocks : (scoreRisk indicators blockThreshold).blockExecution = true) :
    (scoreRisk indicators' blockThreshold).blockExecution = true := by
  simp only [scoreRisk] at higher blocks ⊢
  generalize clamp (blockThreshold.getD (.finite 80)) = threshold at blocks ⊢
  cases threshold with
  | nan => exact blocks
  | infinite negative => exact blocks
  | finite q =>
    simp only [reaches,decide_eq_true_eq] at blocks ⊢
    exact blocks.trans (Int.cast_le.mpr higher)

end StellarAlerts.RiskScorer
