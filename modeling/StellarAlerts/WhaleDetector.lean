import Mathlib.Algebra.Order.Archimedean.Basic
import StellarAlerts.RollingVolume

/-!
The rule that finds unusually large payments. A rule is made with the default configuration
whatever is supplied, and its baseline is the one of `RollingVolume`. What the rule then
decides keeps to the size of the payment (`triggered_mono`).
-/
namespace StellarAlerts.WhaleDetector
open Numbers Repetitions RollingVolume

structure WhaleDetectorConfig where
  stdDeviations : ℚ
  minHistory : ℚ
  minAmount : ℚ
  minEmaMultiplier : ℚ
deriving DecidableEq

/-- A configuration as it is supplied; any field may be absent. -/
structure PartialConfig where
  stdDeviations : Option ℚ
  minHistory : Option ℚ
  minAmount : Option ℚ
  minEmaMultiplier : Option ℚ

def defaultWhaleConfig : WhaleDetectorConfig := ⟨3,5,0,2⟩

/-- What a supplied configuration asks for. -/
def PartialConfig.filled (config : PartialConfig) : WhaleDetectorConfig where
  stdDeviations := config.stdDeviations.getD defaultWhaleConfig.stdDeviations
  minHistory := config.minHistory.getD defaultWhaleConfig.minHistory
  minAmount := config.minAmount.getD defaultWhaleConfig.minAmount
  minEmaMultiplier := config.minEmaMultiplier.getD defaultWhaleConfig.minEmaMultiplier

inductive Reason where
  | triggered | belowThreshold | insufficientHistory | invalidAmount | belowMinAmount | belowEmaMultiplier
deriving DecidableEq

structure WhaleDetectorEvaluationResult where
  triggered : Bool
  reason : Reason
  amount : Number
  baseline : RollingVolumeStats
  threshold : ℚ
  anomalyMultiplier : Number
deriving DecidableEq

structure WhaleDetectorRule where
  config : WhaleDetectorConfig

/-- The constructor; nothing of what is supplied is spread over the defaults. -/
def WhaleDetectorRule.make (_ : PartialConfig) : WhaleDetectorRule := ⟨defaultWhaleConfig⟩

section Rule
variable (p : Platform) (rule : WhaleDetectorRule)

def computeThreshold (baseline : RollingVolumeStats) : ℚ :=
  let stdDeviations := rule.config.stdDeviations
  let meanThreshold := baseline.mean + stdDeviations * baseline.standardDeviation
  let emaStd := p.sqrt (max baseline.emaVariance 0)
  let emaThreshold := baseline.ema + stdDeviations * emaStd
  max meanThreshold emaThreshold

def computeAnomalyMultiplier (amount : ℚ) (baseline : RollingVolumeStats) : Number :=
  if amount ≤ baseline.mean then .finite 0
  else if baseline.standardDeviation = 0 then .infinite false
  else .finite ((amount - baseline.mean) / baseline.standardDeviation)

/-- What `evaluate` does with its baseline. -/
def evaluateOn (baseline : RollingVolumeStats) (amount : Number) : WhaleDetectorEvaluationResult :=
  match amount with
  | .finite value =>
    if value < rule.config.minAmount then ⟨false,.belowMinAmount,amount,baseline,0,.finite 0⟩
    else if (baseline.count : ℚ) < rule.config.minHistory then ⟨false,.insufficientHistory,amount,baseline,0,.finite 0⟩
    else
      let threshold := computeThreshold p rule baseline
      let anomalyMultiplier := computeAnomalyMultiplier value baseline
      if value ≤ threshold then ⟨false,.belowThreshold,amount,baseline,threshold,anomalyMultiplier⟩
      else if 0 < baseline.ema ∧ value < baseline.ema * rule.config.minEmaMultiplier then
        ⟨false,.belowEmaMultiplier,amount,baseline,threshold,anomalyMultiplier⟩
      else ⟨true,.triggered,amount,baseline,threshold,anomalyMultiplier⟩
  | _ => ⟨false,.invalidAmount,amount,baseline,0,.finite 0⟩

def evaluate (options : RollingVolumeServiceOptions) (redis : Redis) (walletId : String) (amount : Number) (timestamp : ℚ) :
    WhaleDetectorEvaluationResult :=
  evaluateOn p rule (getStats p options redis walletId timestamp) amount

end Rule

section Decided
variable {p : Platform} {rule : WhaleDetectorRule} {baseline : RollingVolumeStats}

theorem evaluateOn_triggered {value : ℚ} : (evaluateOn p rule baseline (.finite value)).triggered = true ↔
    rule.config.minAmount ≤ value ∧ rule.config.minHistory ≤ baseline.count ∧ computeThreshold p rule baseline < value ∧
    (0 < baseline.ema → baseline.ema * rule.config.minEmaMultiplier ≤ value) := by
  rw [evaluateOn]
  by_cases small : value < rule.config.minAmount
  · simp [small,not_le.mpr small]
  by_cases few : (baseline.count : ℚ) < rule.config.minHistory
  · simp [small,few,not_le.mpr few]
  by_cases under : value ≤ computeThreshold p rule baseline
  · simp [small,few,under,not_lt.mpr under]
  by_cases ema : 0 < baseline.ema ∧ value < baseline.ema * rule.config.minEmaMultiplier
  · simp [small,few,under,ema]
  · simp only [if_neg small,if_neg few,if_neg under,if_neg ema,true_iff]
    refine ⟨not_lt.mp small,not_lt.mp few,not_le.mp under,fun positive => ?_⟩
    exact not_lt.mp fun less => ema ⟨positive,less⟩

theorem triggered_mono {a b : ℚ} (larger : a ≤ b) (triggers : (evaluateOn p rule baseline (.finite a)).triggered = true) :
    (evaluateOn p rule baseline (.finite b)).triggered = true := by
  rw [evaluateOn_triggered] at triggers ⊢
  obtain ⟨amount,history,threshold,ema⟩ := triggers
  exact ⟨amount.trans larger,history,threshold.trans_le larger,fun positive => (ema positive).trans larger⟩

theorem reason_belowMinAmount {value : ℚ} : (evaluateOn p rule baseline (.finite value)).reason = .belowMinAmount ↔
    value < rule.config.minAmount := by
  simp only [evaluateOn]
  split_ifs with small <;> simp [small]

theorem reason_insufficientHistory {value : ℚ} : (evaluateOn p rule baseline (.finite value)).reason = .insufficientHistory ↔
    rule.config.minAmount ≤ value ∧ (baseline.count : ℚ) < rule.config.minHistory := by
  simp only [evaluateOn]
  split_ifs with small few
  · simp [small]
  · simp [not_lt.mp small,few]
  all_goals simp [few]

theorem threshold_of_enough {value : ℚ} (amount : rule.config.minAmount ≤ value) (history : rule.config.minHistory ≤ baseline.count) :
    (evaluateOn p rule baseline (.finite value)).threshold = computeThreshold p rule baseline := by
  simp only [evaluateOn,if_neg (not_lt.mpr amount),if_neg (not_lt.mpr history)]
  split_ifs <;> rfl

end Decided

section Configured
variable (p : Platform) (config : PartialConfig)

/-- A rule decides as one with the configuration supplied. -/
def Configured : Prop := ∀ baseline amount, evaluateOn p (.make config) baseline amount = evaluateOn p ⟨config.filled⟩ baseline amount

/-- A configuration that asks for what the default does. Histories are counted, so that a minimum between four and five is five. -/
structure AsDefault : Prop where
  stdDeviations : config.filled.stdDeviations = 3
  minHistory : 4 < config.filled.minHistory ∧ config.filled.minHistory ≤ 5
  minAmount : config.filled.minAmount = 0
  minEmaMultiplier : config.filled.minEmaMultiplier = 2

variable {p config}

theorem configured_of_asDefault (default : AsDefault config) : Configured p config := by
  intro baseline amount
  cases amount with
  | nan => rfl
  | infinite negative => rfl
  | finite value =>
    have history : (baseline.count : ℚ) < config.filled.minHistory ↔ (baseline.count : ℚ) < 5 := by
      refine ⟨fun few => few.trans_le default.minHistory.2,fun few => ?_⟩
      have counted : baseline.count ≤ 4 := by
        have : baseline.count < 5 := by exact_mod_cast few
        omega
      exact lt_of_le_of_lt (by exact_mod_cast counted) default.minHistory.1
    have rest : computeThreshold p ⟨config.filled⟩ baseline = computeThreshold p (.make config) baseline := by
      simp only [computeThreshold,WhaleDetectorRule.make,defaultWhaleConfig,default.stdDeviations]
    have same : (⟨config.filled⟩ : WhaleDetectorRule) = ⟨3,config.filled.minHistory,0,2⟩ := by
      rw [← default.stdDeviations,← default.minAmount,← default.minEmaMultiplier]
    rw [same] at rest ⊢
    simp only [evaluateOn,rest,history]
    rfl

def meanBaseline (count : Nat) (ema : ℚ) : RollingVolumeStats := ⟨count,0,0,1,ema,0,none,none⟩

/-- A baseline that shows the threshold of the moving average. -/
def emaBaseline (ema : ℚ) : RollingVolumeStats := ⟨5,0,0,0,ema,0,none,none⟩

section Follows
variable (follows : Configured p config)
include follows

theorem minAmount_of_configured : config.filled.minAmount = 0 := by
  refine (eq_of_forall_lt_iff fun value => ?_).symm
  have same := congrArg WhaleDetectorEvaluationResult.reason (follows (emaBaseline 0) (.finite value))
  have default := @reason_belowMinAmount p (.make config) (emaBaseline 0) value
  rw [same,reason_belowMinAmount] at default
  exact default.symm

theorem minHistory_of_configured : 4 < config.filled.minHistory ∧ config.filled.minHistory ≤ 5 := by
  have short : ∀ count : Nat, (count : ℚ) < 5 ↔ (count : ℚ) < config.filled.minHistory := by
    intro count
    have same := congrArg WhaleDetectorEvaluationResult.reason (follows (meanBaseline count 0) (.finite 0))
    have default := @reason_insufficientHistory p (.make config) (meanBaseline count 0) 0
    rw [same,reason_insufficientHistory] at default
    simpa [WhaleDetectorRule.make,defaultWhaleConfig,minAmount_of_configured follows,meanBaseline] using default.symm
  have four := short 4
  have five := short 5
  norm_num at four five
  exact ⟨four,five⟩

theorem stdDeviations_of_configured : config.filled.stdDeviations = 3 := by
  have history := (minHistory_of_configured follows).2
  have amount := minAmount_of_configured follows
  -- A moving average so low that its threshold stays under the one of the mean.
  let s := config.filled.stdDeviations
  let low : ℚ := -(|s * p.sqrt 0| + |3 * p.sqrt 0| + |s| + 3)
  have shown : ∀ rule : WhaleDetectorRule, rule.config.stdDeviations = s ∨ rule.config.stdDeviations = 3 →
      computeThreshold p rule (meanBaseline 5 low) = rule.config.stdDeviations := by
    intro rule either
    have root : max (meanBaseline 5 low).emaVariance 0 = 0 := max_self 0
    simp only [computeThreshold,root]
    have bounds := And.intro (abs_nonneg (s * p.sqrt 0)) (abs_nonneg (3 * p.sqrt 0))
    have upper := And.intro (le_abs_self (s * p.sqrt 0)) (le_abs_self (3 * p.sqrt 0))
    have size := And.intro (neg_abs_le s) (abs_nonneg s)
    rw [max_eq_left]
    · simp [meanBaseline]
    · rcases either with is | is
      · rw [is]
        simp only [meanBaseline,low]
        linarith [bounds.1,bounds.2,upper.1,upper.2,size.1,size.2]
      · rw [is]
        simp only [meanBaseline,low]
        linarith [bounds.1,bounds.2,upper.1,upper.2,size.1,size.2]
  have same := congrArg WhaleDetectorEvaluationResult.threshold (follows (meanBaseline 5 low) (.finite 0))
  have default := @threshold_of_enough p (.make config) (meanBaseline 5 low) 0
    (by simp [WhaleDetectorRule.make,defaultWhaleConfig]) (by simp [WhaleDetectorRule.make,defaultWhaleConfig,meanBaseline])
  have supplied := @threshold_of_enough p ⟨config.filled⟩ (meanBaseline 5 low) 0
    amount.le (by simpa [meanBaseline] using history)
  rw [default,supplied,shown (.make config) (.inr rfl),shown ⟨config.filled⟩ (.inl rfl)] at same
  exact same.symm

theorem minEmaMultiplier_of_configured : config.filled.minEmaMultiplier = 2 := by
  have history := minHistory_of_configured follows
  have amount := minAmount_of_configured follows
  have deviations := stdDeviations_of_configured follows
  -- An average so high that twice of it is above the threshold.
  let ema : ℚ := |3 * p.sqrt 0| + 1
  have high := le_abs_self (3 * p.sqrt 0)
  have positive : 0 < ema := by positivity
  have threshold : ∀ rule : WhaleDetectorRule, rule.config.stdDeviations = 3 →
      computeThreshold p rule (emaBaseline ema) = max 0 (ema + 3 * p.sqrt 0) := by
    intro rule is
    simp [computeThreshold,emaBaseline,is]
  have under : max 0 (ema + 3 * p.sqrt 0) < ema * 2 := by
    refine max_lt (by linarith) ?_
    simp only [ema]
    linarith
  have triggers : ∀ value : ℚ, max 0 (ema + 3 * p.sqrt 0) < value →
      (ema * 2 ≤ value ↔ ema * config.filled.minEmaMultiplier ≤ value) := by
    intro value enough
    have nonnegative : 0 ≤ value := (le_max_left _ _).trans enough.le
    have same := congrArg WhaleDetectorEvaluationResult.triggered (follows (emaBaseline ema) (.finite value))
    have default := @evaluateOn_triggered p (.make config) (emaBaseline ema) value
    rw [same,evaluateOn_triggered,threshold (.make config) rfl,threshold ⟨config.filled⟩ deviations] at default
    have five : config.filled.minHistory ≤ ((emaBaseline ema).count : ℚ) := by simpa [emaBaseline] using history.2
    have asked : (5 : ℚ) ≤ ((emaBaseline ema).count : ℚ) := by simp [emaBaseline]
    simp only [WhaleDetectorRule.make,defaultWhaleConfig,amount,nonnegative,five,asked,enough,true_and] at default
    have average : (emaBaseline ema).ema = ema := rfl
    rw [average] at default
    exact ⟨fun twice => default.mpr (fun _ => twice) positive,fun asks => default.mp (fun _ => asks) positive⟩
  -- At twice the average the supplied multiple is at most two, and just above the larger of both it is at least two.
  have atMost : ema * config.filled.minEmaMultiplier ≤ ema * 2 := (triggers _ under).mp le_rfl
  have atLeast : ema * 2 ≤ ema * config.filled.minEmaMultiplier := by
    by_contra less
    let value := max (ema * config.filled.minEmaMultiplier) ((max 0 (ema + 3 * p.sqrt 0) + ema * 2) / 2)
    have between : max 0 (ema + 3 * p.sqrt 0) < value := lt_max_of_lt_right (by linarith)
    have twice := (triggers value between).mpr (le_max_left _ _)
    have below : value < ema * 2 := max_lt (not_le.mp less) (by linarith)
    exact absurd twice (not_le.mpr below)
  exact mul_left_cancel₀ positive.ne' (le_antisymm atMost atLeast)

end Follows

theorem configured_iff : Configured p config ↔ AsDefault config :=
  ⟨fun follows => ⟨stdDeviations_of_configured follows,minHistory_of_configured follows,minAmount_of_configured follows,
    minEmaMultiplier_of_configured follows⟩,configured_of_asDefault⟩

end Configured

section Whales
variable (p : Platform) (options : RollingVolumeServiceOptions) (calls : List RecordCall) (walletId : String) (t : ℚ)
  (config : PartialConfig)

/-- The payments recorded in the window that ends at a time. -/
def inWindow : List RollingVolumeEntry :=
  (payments calls walletId).filter fun e => t - options.windowMs ≤ e.timestamp ∧ e.timestamp ≤ t

/-- The statistics are those of the window, and the rule follows its configuration and the size of payments. -/
structure DetectsWhales : Prop where
  count : (getStats p options (run options calls) walletId t).count = (inWindow options calls walletId t).length
  total : (getStats p options (run options calls) walletId t).total =
    ((inWindow options calls walletId t).map RollingVolumeEntry.amount).sum
  configured : Configured p config
  monotone : ∀ baseline (a b : ℚ), a ≤ b → (evaluateOn p (.make config) baseline (.finite a)).triggered = true →
    (evaluateOn p (.make config) baseline (.finite b)).triggered = true

/-- The payments of the window that are recorded a second time. -/
def recordedAgain : List RollingVolumeEntry :=
  (repeats [] (payments calls walletId)).filter fun e => t - options.windowMs ≤ e.timestamp ∧ e.timestamp ≤ t

/-- The payments after the window, each once. -/
def ahead : List RollingVolumeEntry :=
  (news [] (payments calls walletId)).filter fun e => t - options.windowMs ≤ e.timestamp ∧ t < e.timestamp

/-- What the window lacks of the payments recorded again is made up by payments ahead of it. -/
structure Balanced : Prop where
  count : (recordedAgain options calls walletId t).length = (ahead options calls walletId t).length
  total : ((recordedAgain options calls walletId t).map RollingVolumeEntry.amount).sum =
    ((ahead options calls walletId t).map RollingVolumeEntry.amount).sum

variable {p options calls walletId t config}

theorem read_perm :
    ((news [] (payments calls walletId)).filter (fun e => t - options.windowMs ≤ e.timestamp) ++
      recordedAgain options calls walletId t).Perm
    (inWindow options calls walletId t ++ ahead options calls walletId t) := by
  have split := (split_perm [] (payments calls walletId)).filter
    fun e => decide (t - options.windowMs ≤ e.timestamp ∧ e.timestamp ≤ t)
  rw [List.filter_append] at split
  have parted := List.filter_append_perm (fun e : RollingVolumeEntry => decide (e.timestamp ≤ t))
    ((news [] (payments calls walletId)).filter fun e => t - options.windowMs ≤ e.timestamp)
  rw [List.filter_filter,List.filter_filter] at parted
  have past : (fun e : RollingVolumeEntry => decide (e.timestamp ≤ t) && decide (t - options.windowMs ≤ e.timestamp)) =
      fun e => decide (t - options.windowMs ≤ e.timestamp ∧ e.timestamp ≤ t) := by
    funext e
    simp [Bool.and_comm]
  have future : (fun e : RollingVolumeEntry => (!decide (e.timestamp ≤ t)) && decide (t - options.windowMs ≤ e.timestamp)) =
      fun e => decide (t - options.windowMs ≤ e.timestamp ∧ t < e.timestamp) := by
    funext e
    by_cases late : t < e.timestamp
    · simp [late]
    · simp [late,not_lt.mp late]
  rw [past,future] at parted
  refine (parted.symm.append_right _).trans ?_
  rw [List.append_assoc]
  refine (List.perm_append_comm.append_left _).trans ?_
  rw [← List.append_assoc]
  exact split.append_right _

theorem stats_iff : ((getStats p options (run options calls) walletId t).count = (inWindow options calls walletId t).length ∧
    (getStats p options (run options calls) walletId t).total =
      ((inWindow options calls walletId t).map RollingVolumeEntry.amount).sum) ↔ Balanced options calls walletId t := by
  obtain ⟨count,total⟩ := @getStats_eq p options calls walletId t
  have lengths := (@read_perm options calls walletId t).length_eq
  have sums := ((@read_perm options calls walletId t).map
    RollingVolumeEntry.amount).sum_eq
  rw [List.length_append,List.length_append] at lengths
  rw [List.map_append,List.map_append,List.sum_append,List.sum_append] at sums
  rw [count,total]
  constructor
  · rintro ⟨number,amount⟩
    exact ⟨by omega,by linarith⟩
  · rintro ⟨number,amount⟩
    exact ⟨by omega,by linarith⟩

end Whales

/-- Payments are detected by their window and configuration exactly when the configuration asks for what the default
    does and no payment of the window is lost to a repetition, nor one counted that is ahead, but in balance. -/
theorem detectsWhales_iff (p : Platform) (options : RollingVolumeServiceOptions) (calls : List RecordCall) (walletId : String) (t : ℚ)
    (config : PartialConfig) :
    DetectsWhales p options calls walletId t config ↔ Balanced options calls walletId t ∧ AsDefault config := by
  constructor
  · rintro ⟨count,total,configured,-⟩
    exact ⟨stats_iff.mp ⟨count,total⟩,configured_iff.mp configured⟩
  · rintro ⟨balanced,default⟩
    obtain ⟨count,total⟩ := stats_iff (p := p) |>.mpr balanced
    exact ⟨count,total,configured_iff.mpr default,fun _ _ _ => triggered_mono⟩

/-- Two payments of the same amount at the same time. -/
def paidTwice : List RecordCall := [⟨"w",.finite 10,1000⟩,⟨"w",.finite 10,1000⟩]

/-- They count as one. -/
theorem paidTwice_counted_once : ¬ DetectsWhales ⟨id,fun _ _ => false⟩ defaultOptions paidTwice "w" 1000 ⟨none,none,none,none⟩ := by
  intro detects
  have counted := (@getStats_eq ⟨id,fun _ _ => false⟩ defaultOptions paidTwice "w" 1000).1
  rw [detects.count] at counted
  exact absurd counted (by decide +kernel)

end StellarAlerts.WhaleDetector
