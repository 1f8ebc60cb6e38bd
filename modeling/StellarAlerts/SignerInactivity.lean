import Mathlib.Data.Rat.Floor
import Mathlib.Tactic.Positivity

/-!
The watcher of signers that have gone quiet.
-/
namespace StellarAlerts.SignerInactivity

inductive SignerStatus where
  | ACTIVE
  | STALE
  | INACTIVE
  | ABANDONED
deriving DecidableEq, Repr

inductive QuorumRisk where
  | OK
  | WARNING
  | CRITICAL
deriving DecidableEq, Repr

inductive MultisigThresholdLevel where
  | low
  | medium
  | high
deriving DecidableEq, Repr

structure MultisigThresholds where
  low : ℚ
  medium : ℚ
  high : ℚ

/-- A signer and the time of its last signature, in milliseconds. -/
structure SignerActivity where
  key : String
  weight : ℚ≥0
  lastActiveAt : Option ℚ

structure TreasurySignerSnapshot where
  treasuryId : String
  publicKey : String
  label : Option String
  thresholds : MultisigThresholds
  thresholdLevel : MultisigThresholdLevel
  signers : List SignerActivity

structure SignerAssessment where
  key : String
  weight : ℚ
  inactiveDays : Option ℚ
  status : SignerStatus
  decayedWeight : ℚ

structure TreasuryInactivityAssessment where
  treasuryId : String
  publicKey : String
  label : Option String
  requiredThreshold : ℚ
  thresholdLevel : MultisigThresholdLevel
  totalWeight : ℚ
  activeWeight : ℚ
  reachableWeight : ℚ
  decayedWeight : ℚ
  signers : List SignerAssessment
  atRiskSigners : List SignerAssessment
  risk : QuorumRisk
  message : String

structure SignerInactivityOptions where
  staleAfterDays : Option ℚ := none
  inactiveAfterDays : Option ℚ := none
  abandonedAfterDays : Option ℚ := none

structure SignerInactivityWatcher where
  staleAfterDays : ℚ
  inactiveAfterDays : ℚ
  abandonedAfterDays : ℚ

/-- The constructor. -/
def newWatcher (options : SignerInactivityOptions) : SignerInactivityWatcher where
  staleAfterDays := options.staleAfterDays.getD 30
  inactiveAfterDays := options.inactiveAfterDays.getD 90
  abandonedAfterDays := options.abandonedAfterDays.getD 180

def MS_PER_DAY : ℚ := 24 * 60 * 60 * 1000

/-- `Math.round` takes the integer above a half. -/
def round2 (value : ℚ) : ℚ := ⌊value * 100 + 1 / 2⌋ / 100

def inactiveDays (lastActiveAt : Option ℚ) (now : ℚ) : Option ℚ :=
  lastActiveAt.map fun at_ => max 0 (⌊(now - at_) / MS_PER_DAY⌋ : ℚ)

section Watcher
variable (watcher : SignerInactivityWatcher)

def decayFactor : Option ℚ → ℚ
  | none => 0
  | some days =>
    if days ≤ watcher.staleAfterDays then 1
    else if watcher.abandonedAfterDays ≤ days then 0
    else
      let span := watcher.abandonedAfterDays - watcher.staleAfterDays
      let elapsed := days - watcher.staleAfterDays
      max 0 (min 1 (1 - elapsed / span))

def classify : Option ℚ → SignerStatus
  | none => .ABANDONED
  | some days =>
    if watcher.abandonedAfterDays ≤ days then .ABANDONED
    else if watcher.inactiveAfterDays ≤ days then .INACTIVE
    else if watcher.staleAfterDays ≤ days then .STALE
    else .ACTIVE

def assessSigner (signer : SignerActivity) (now : ℚ) : SignerAssessment where
  key := signer.key
  weight := signer.weight
  inactiveDays := inactiveDays signer.lastActiveAt now
  status := classify watcher (inactiveDays signer.lastActiveAt now)
  decayedWeight := round2 (signer.weight * decayFactor watcher (inactiveDays signer.lastActiveAt now))

def requiredThreshold (thresholds : MultisigThresholds) : MultisigThresholdLevel → ℚ
  | .low => thresholds.low
  | .high => thresholds.high
  | .medium => thresholds.medium

def levelText : MultisigThresholdLevel → String
  | .low => "low"
  | .medium => "medium"
  | .high => "high"

/-- What the loop over the signers sums up. -/
structure Totals where
  totalWeight : ℚ
  activeWeight : ℚ
  reachableWeight : ℚ
  decayedWeight : ℚ
  maxActiveWeight : ℚ

def Totals.add (t : Totals) (a : SignerAssessment) : Totals where
  totalWeight := t.totalWeight + a.weight
  activeWeight := if a.status = .ACTIVE then t.activeWeight + a.weight else t.activeWeight
  reachableWeight := if a.status ≠ .ABANDONED then t.reachableWeight + a.weight else t.reachableWeight
  decayedWeight := t.decayedWeight + a.decayedWeight
  maxActiveWeight := if a.status = .ACTIVE then (if t.maxActiveWeight < a.weight then a.weight else t.maxActiveWeight)
    else t.maxActiveWeight

def totals (assessments : List SignerAssessment) : Totals := assessments.foldl Totals.add ⟨0,0,0,0,0⟩

def riskOf (t : Totals) (requiredThreshold : ℚ) : QuorumRisk :=
  if t.reachableWeight < requiredThreshold then .CRITICAL
  else if t.activeWeight < requiredThreshold then .WARNING
  else if t.activeWeight - t.maxActiveWeight < requiredThreshold then .WARNING
  else .OK

/-- The message of the branch that sets the risk; a public key is ASCII. -/
def messageOf (text : ℚ → String) (snapshot : TreasurySignerSnapshot) (t : Totals) (requiredThreshold : ℚ) : String :=
  let name := snapshot.label.getD (String.ofList (snapshot.publicKey.toList.take 8) ++ "…")
  let level := levelText snapshot.thresholdLevel
  if t.reachableWeight < requiredThreshold then
    "CRITICAL: Treasury \"" ++ name ++ "\" can no longer reach its " ++ level ++ " quorum (" ++ text requiredThreshold ++
      "). Reachable signer weight has decayed to " ++ text t.reachableWeight ++ " after signer abandonment."
  else if t.activeWeight < requiredThreshold then
    "WARNING: Treasury \"" ++ name ++ "\" relies on stale/inactive signers to meet its " ++ level ++ " quorum (" ++
      text requiredThreshold ++ "); active weight is only " ++ text t.activeWeight ++ "."
  else if t.activeWeight - t.maxActiveWeight < requiredThreshold then
    "WARNING: Treasury \"" ++ name ++ "\" quorum depends on a single signer — losing its highest-weight active signer (" ++
      text t.maxActiveWeight ++ ") would drop below the " ++ level ++ " threshold (" ++ text requiredThreshold ++ ")."
  else
    "Treasury \"" ++ name ++ "\" quorum is healthy (active weight " ++ text t.activeWeight ++ " / threshold " ++
      text requiredThreshold ++ ")."

/-- The assessment at a time, where numbers print as the given texts. -/
def assessTreasury (text : ℚ → String) (snapshot : TreasurySignerSnapshot) (now : ℚ) : TreasuryInactivityAssessment :=
  let required := requiredThreshold snapshot.thresholds snapshot.thresholdLevel
  let assessments := snapshot.signers.map fun s => assessSigner watcher s now
  let t := totals assessments
  { treasuryId := snapshot.treasuryId
    publicKey := snapshot.publicKey
    label := snapshot.label
    requiredThreshold := required
    thresholdLevel := snapshot.thresholdLevel
    totalWeight := t.totalWeight
    activeWeight := t.activeWeight
    reachableWeight := t.reachableWeight
    decayedWeight := round2 t.decayedWeight
    signers := assessments
    atRiskSigners := assessments.filter fun a => a.status ≠ .ACTIVE
    risk := riskOf t required
    message := messageOf text snapshot t required }

def statusAt (now : ℚ) (s : SignerActivity) : SignerStatus := classify watcher (inactiveDays s.lastActiveAt now)
def active (now : ℚ) (signers : List SignerActivity) : List SignerActivity :=
  signers.filter fun s => statusAt watcher now s = .ACTIVE
def reachable (now : ℚ) (signers : List SignerActivity) : List SignerActivity :=
  signers.filter fun s => statusAt watcher now s ≠ .ABANDONED

end Watcher

def weightOf (signers : List SignerActivity) : ℚ := (signers.map fun s => (s.weight : ℚ)).sum

/-- The signers reach the threshold, and still do without any one of them. -/
def Resilient (required : ℚ) (signers : List SignerActivity) : Prop :=
  required ≤ weightOf signers ∧ ∀ before s after, signers = before ++ s :: after → required ≤ weightOf (before ++ after)

@[simp] theorem weightOf_nil : weightOf [] = 0 := rfl
@[simp] theorem weightOf_cons (s : SignerActivity) (rest : List SignerActivity) :
    weightOf (s :: rest) = s.weight + weightOf rest := by simp [weightOf]
@[simp] theorem weightOf_append (first second : List SignerActivity) :
    weightOf (first ++ second) = weightOf first + weightOf second := by simp [weightOf]

variable {fewer signers : List SignerActivity}

theorem weightOf_sublist (sub : fewer.Sublist signers) : weightOf fewer ≤ weightOf signers := by
  induction sub with
  | slnil => exact le_refl _
  | cons s _ ih =>
    have nonneg : (0 : ℚ) ≤ s.weight := s.weight.2
    rw [weightOf_cons]
    linarith
  | cons_cons s _ ih =>
    rw [weightOf_cons,weightOf_cons]
    linarith

theorem Resilient.mono {required : ℚ} (sub : fewer.Sublist signers) (resilient : Resilient required fewer) :
    Resilient required signers := by
  refine ⟨resilient.1.trans (weightOf_sublist sub),?_⟩
  rintro before s after rfl
  obtain ⟨first,second,rfl,firstSub,secondSub⟩ := List.sublist_append_iff.mp sub
  rcases List.sublist_cons_iff.mp secondSub with without | ⟨rest,rfl,restSub⟩
  · exact resilient.1.trans (weightOf_sublist (firstSub.append without))
  · exact (resilient.2 first s rest rfl).trans (weightOf_sublist (firstSub.append restSub))

section Times
variable {watcher : SignerInactivityWatcher} {now later : ℚ}

theorem round2_mono {less more : ℚ} (le : less ≤ more) : round2 less ≤ round2 more := by
  have floors : ⌊less * 100 + 1 / 2⌋ ≤ ⌊more * 100 + 1 / 2⌋ := Int.floor_mono (by linarith)
  have cast : (⌊less * 100 + 1 / 2⌋ : ℚ) ≤ ⌊more * 100 + 1 / 2⌋ := by exact_mod_cast floors
  rw [round2,round2]
  linarith

theorem inactiveDays_mono (le : now ≤ later) (lastActiveAt : Option ℚ) :
    (lastActiveAt = none ∧ inactiveDays lastActiveAt now = none ∧ inactiveDays lastActiveAt later = none) ∨
      ∃ days more, inactiveDays lastActiveAt now = some days ∧ inactiveDays lastActiveAt later = some more ∧ days ≤ more := by
  cases lastActiveAt with
  | none => exact .inl ⟨rfl,rfl,rfl⟩
  | some at_ =>
    refine .inr ⟨_,_,rfl,rfl,?_⟩
    have day : 0 < MS_PER_DAY := by norm_num [MS_PER_DAY]
    have moved : (now - at_) / MS_PER_DAY ≤ (later - at_) / MS_PER_DAY := by gcongr
    exact max_le_max (le_refl 0) (by exact_mod_cast Int.floor_mono moved)

theorem decayFactor_nonneg (days : Option ℚ) : 0 ≤ decayFactor watcher days := by
  cases days with
  | none => exact le_refl 0
  | some days =>
    rw [decayFactor]
    split
    · exact zero_le_one
    · split
      · exact le_refl 0
      · exact le_max_left ..

theorem decayFactor_le_one (days : Option ℚ) : decayFactor watcher days ≤ 1 := by
  cases days with
  | none => exact zero_le_one
  | some days =>
    rw [decayFactor]
    split
    · exact le_refl 1
    · split
      · exact zero_le_one
      · exact max_le zero_le_one (min_le_left ..)

theorem decayFactor_antitone {days more : ℚ} (le : days ≤ more) :
    decayFactor watcher (some more) ≤ decayFactor watcher (some days) := by
  by_cases fresh : days ≤ watcher.staleAfterDays
  · have full : decayFactor watcher (some days) = 1 := by rw [decayFactor,if_pos fresh]
    rw [full]
    exact decayFactor_le_one ..
  · have stale : ¬ more ≤ watcher.staleAfterDays := fun early => fresh (le.trans early)
    by_cases gone : watcher.abandonedAfterDays ≤ more
    · have nothing : decayFactor watcher (some more) = 0 := by rw [decayFactor,if_neg stale,if_pos gone]
      rw [nothing]
      exact decayFactor_nonneg ..
    · have here : ¬ watcher.abandonedAfterDays ≤ days := fun early => gone (early.trans le)
      have span : 0 < watcher.abandonedAfterDays - watcher.staleAfterDays := by linarith
      rw [decayFactor,if_neg stale,if_neg gone,decayFactor,if_neg fresh,if_neg here]
      have elapsed : (days - watcher.staleAfterDays) / (watcher.abandonedAfterDays - watcher.staleAfterDays) ≤
          (more - watcher.staleAfterDays) / (watcher.abandonedAfterDays - watcher.staleAfterDays) := by gcongr
      exact max_le_max (le_refl 0) (min_le_min (le_refl 1) (by linarith))

theorem decayed_antitone (le : now ≤ later) (s : SignerActivity) :
    s.weight * decayFactor watcher (inactiveDays s.lastActiveAt later) ≤
        s.weight * decayFactor watcher (inactiveDays s.lastActiveAt now) ∧
      (assessSigner watcher s later).decayedWeight ≤ (assessSigner watcher s now).decayedWeight := by
  have factor : decayFactor watcher (inactiveDays s.lastActiveAt later) ≤
      decayFactor watcher (inactiveDays s.lastActiveAt now) := by
    rcases inactiveDays_mono le s.lastActiveAt with ⟨_,first,second⟩ | ⟨days,more,first,second,grows⟩
    · rw [first,second]
    · rw [first,second]
      exact decayFactor_antitone grows
  have product := mul_le_mul_of_nonneg_left factor s.weight.2
  exact ⟨product,round2_mono product⟩

theorem classify_active_iff (days : Option ℚ) :
    classify watcher days = .ACTIVE ↔ ∃ d, days = some d ∧ d < watcher.abandonedAfterDays ∧
      d < watcher.inactiveAfterDays ∧ d < watcher.staleAfterDays := by
  cases days with
  | none => simp [classify]
  | some d =>
    simp only [classify,Option.some.injEq,exists_eq_left']
    grind

theorem classify_abandoned_iff (days : Option ℚ) :
    classify watcher days ≠ .ABANDONED ↔ ∃ d, days = some d ∧ d < watcher.abandonedAfterDays := by
  cases days with
  | none => simp [classify]
  | some d =>
    simp only [classify,Option.some.injEq,exists_eq_left']
    grind

theorem status_earlier (le : now ≤ later) (s : SignerActivity) :
    (statusAt watcher later s = .ACTIVE → statusAt watcher now s = .ACTIVE) ∧
      (statusAt watcher later s ≠ .ABANDONED → statusAt watcher now s ≠ .ABANDONED) := by
  rw [statusAt,statusAt,classify_active_iff,classify_active_iff,classify_abandoned_iff,classify_abandoned_iff]
  rcases inactiveDays_mono le s.lastActiveAt with ⟨_,first,second⟩ | ⟨days,more,first,second,grows⟩
  · rw [first,second]
    exact ⟨id,id⟩
  · rw [first,second]
    constructor
    · rintro ⟨d,same,abandoned,inactive,stale⟩
      cases same
      exact ⟨days,rfl,grows.trans_lt abandoned,grows.trans_lt inactive,grows.trans_lt stale⟩
    · rintro ⟨d,same,abandoned⟩
      cases same
      exact ⟨days,rfl,grows.trans_lt abandoned⟩

theorem active_sublist (le : now ≤ later) (signers : List SignerActivity) :
    (active watcher later signers).Sublist (active watcher now signers) := by
  refine List.monotone_filter_right signers ?_
  intro s isActive
  have first := (status_earlier le s).1 (of_decide_eq_true isActive)
  exact decide_eq_true first

theorem reachable_sublist (le : now ≤ later) (signers : List SignerActivity) :
    (reachable watcher later signers).Sublist (reachable watcher now signers) := by
  refine List.monotone_filter_right signers ?_
  intro s isReachable
  have first := (status_earlier le s).2 (of_decide_eq_true isReachable)
  exact decide_eq_true first

theorem active_reachable (signers : List SignerActivity) :
    (active watcher now signers).Sublist (reachable watcher now signers) := by
  refine List.monotone_filter_right signers ?_
  intro s isActive
  have is : statusAt watcher now s = .ACTIVE := of_decide_eq_true isActive
  exact decide_eq_true (by rw [is]; decide)

end Times

section Totals
variable (watcher : SignerInactivityWatcher) (now : ℚ)

@[simp] theorem assessSigner_weight (s : SignerActivity) : (assessSigner watcher s now).weight = s.weight := rfl
@[simp] theorem assessSigner_status (s : SignerActivity) : (assessSigner watcher s now).status = statusAt watcher now s := rfl

def totalsOf (signers : List SignerActivity) : Totals := totals (signers.map fun s => assessSigner watcher s now)

theorem totalsOf_append (signers : List SignerActivity) (s : SignerActivity) :
    totalsOf watcher now (signers ++ [s]) = (totalsOf watcher now signers).add (assessSigner watcher s now) := by
  simp [totalsOf,totals]

theorem activeWeight_eq (signers : List SignerActivity) :
    (totalsOf watcher now signers).activeWeight = weightOf (active watcher now signers) := by
  induction signers using List.reverseRecOn with
  | nil => rfl
  | append_singleton signers s ih =>
    rw [totalsOf_append,Totals.add,active,List.filter_append]
    by_cases isActive : statusAt watcher now s = .ACTIVE
    · simp [isActive,ih,active]
    · simp [isActive,ih,active]

theorem reachableWeight_eq (signers : List SignerActivity) :
    (totalsOf watcher now signers).reachableWeight = weightOf (reachable watcher now signers) := by
  induction signers using List.reverseRecOn with
  | nil => rfl
  | append_singleton signers s ih =>
    rw [totalsOf_append,Totals.add,reachable,List.filter_append]
    by_cases isAbandoned : statusAt watcher now s = .ABANDONED
    · simp [isAbandoned,ih,reachable]
    · simp [isAbandoned,ih,reachable]

theorem larger_le_iff {first second bound : ℚ} :
    (if first < second then second else first) ≤ bound ↔ first ≤ bound ∧ second ≤ bound := by
  split
  · next less => exact ⟨fun le => ⟨less.le.trans le,le⟩,And.right⟩
  · next most => exact ⟨fun le => ⟨le,(not_lt.mp most).trans le⟩,And.left⟩

theorem maxActiveWeight_le_iff (signers : List SignerActivity) (bound : ℚ) :
    (totalsOf watcher now signers).maxActiveWeight ≤ bound ↔
      0 ≤ bound ∧ ∀ s ∈ active watcher now signers, (s.weight : ℚ) ≤ bound := by
  induction signers using List.reverseRecOn with
  | nil => simp [totalsOf,totals,active]
  | append_singleton signers s ih =>
    rw [totalsOf_append,Totals.add,active,List.filter_append]
    by_cases isActive : statusAt watcher now s = .ACTIVE
    · simp only [assessSigner_status,isActive,if_true,decide_true,List.filter_cons_of_pos,List.filter_nil,
        List.mem_append,List.mem_singleton]
      rw [larger_le_iff,ih,assessSigner_weight]
      constructor
      · rintro ⟨⟨nonneg,most⟩,own⟩
        refine ⟨nonneg,?_⟩
        rintro t (listed | rfl)
        · exact most t listed
        · exact own
      · rintro ⟨nonneg,most⟩
        exact ⟨⟨nonneg,fun t listed => most t (.inl listed)⟩,most s (.inr rfl)⟩
    · simpa [isActive,active] using ih

theorem resilient_iff (signers : List SignerActivity) (required : ℚ) :
    Resilient required (active watcher now signers) ↔
      required ≤ (totalsOf watcher now signers).activeWeight ∧
        required ≤ (totalsOf watcher now signers).activeWeight - (totalsOf watcher now signers).maxActiveWeight := by
  have test : required ≤ (totalsOf watcher now signers).activeWeight - (totalsOf watcher now signers).maxActiveWeight ↔
      (totalsOf watcher now signers).maxActiveWeight ≤ (totalsOf watcher now signers).activeWeight - required := by
    constructor <;> intro le <;> linarith
  rw [test,maxActiveWeight_le_iff,activeWeight_eq]
  constructor
  · rintro ⟨together,without⟩
    refine ⟨together,by linarith,?_⟩
    intro s listed
    obtain ⟨before,after,split⟩ := List.append_of_mem listed
    have rest := without before s after split
    rw [split,weightOf_append,weightOf_cons]
    rw [weightOf_append] at rest
    linarith
  · rintro ⟨together,_,most⟩
    refine ⟨together,?_⟩
    intro before s after split
    have own := most s (by simp [split])
    rw [split,weightOf_append,weightOf_cons] at own
    rw [weightOf_append]
    linarith

end Totals

def QuorumRisk.severity : QuorumRisk → Nat
  | .OK => 0
  | .WARNING => 1
  | .CRITICAL => 2

section Risk
variable (watcher : SignerInactivityWatcher) (text : ℚ → String) (snapshot : TreasurySignerSnapshot)

/-- The weight that the treasury asks for. -/
def requiredOf : ℚ := requiredThreshold snapshot.thresholds snapshot.thresholdLevel

theorem critical_iff (now : ℚ) :
    (assessTreasury watcher text snapshot now).risk = .CRITICAL ↔
      weightOf (reachable watcher now snapshot.signers) < requiredOf snapshot := by
  have is : (assessTreasury watcher text snapshot now).risk =
      riskOf (totalsOf watcher now snapshot.signers) (requiredOf snapshot) := rfl
  rw [is,← reachableWeight_eq,riskOf]
  split
  · next below => simp [below]
  · next enough =>
    have notCritical : ∀ tests : Prop, ∀ [Decidable tests], (if tests then QuorumRisk.WARNING else .OK) ≠ .CRITICAL := by
      intro tests _
      split <;> simp
    split
    · simp [enough]
    · simp [enough,notCritical]

theorem ok_iff (now : ℚ) :
    (assessTreasury watcher text snapshot now).risk = .OK ↔
      Resilient (requiredOf snapshot) (active watcher now snapshot.signers) := by
  have is : (assessTreasury watcher text snapshot now).risk =
      riskOf (totalsOf watcher now snapshot.signers) (requiredOf snapshot) := rfl
  have fewer : (totalsOf watcher now snapshot.signers).activeWeight ≤
      (totalsOf watcher now snapshot.signers).reachableWeight := by
    rw [activeWeight_eq,reachableWeight_eq]
    exact weightOf_sublist (active_reachable snapshot.signers)
  rw [is,resilient_iff,riskOf]
  split
  · next below =>
    have short : ¬ requiredOf snapshot ≤ (totalsOf watcher now snapshot.signers).activeWeight := fun enough =>
      absurd (enough.trans fewer) (not_le.mpr below)
    simp [short]
  · split
    · next below => simp [not_le.mpr below]
    · next enough =>
      split
      · next below => simp [not_le.mpr below]
      · next spare => simp [not_lt.mp enough,not_lt.mp spare]

theorem severity_mono {now later : ℚ} (le : now ≤ later) :
    (assessTreasury watcher text snapshot now).risk.severity ≤ (assessTreasury watcher text snapshot later).risk.severity := by
  have stays : (assessTreasury watcher text snapshot now).risk = .CRITICAL →
      (assessTreasury watcher text snapshot later).risk = .CRITICAL := by
    rw [critical_iff,critical_iff]
    exact (weightOf_sublist (reachable_sublist le snapshot.signers)).trans_lt
  have was : (assessTreasury watcher text snapshot later).risk = .OK →
      (assessTreasury watcher text snapshot now).risk = .OK := by
    rw [ok_iff,ok_iff]
    exact Resilient.mono (active_sublist le snapshot.signers)
  cases before : (assessTreasury watcher text snapshot now).risk with
  | OK => exact Nat.zero_le _
  | WARNING =>
    cases after : (assessTreasury watcher text snapshot later).risk with
    | OK =>
      rw [was after] at before
      cases before
    | WARNING => exact le_refl _
    | CRITICAL => decide
  | CRITICAL => rw [stays before]

end Risk

/-- For all windows a treasury's risk grows with time and its signers' weights decay; the risk is critical just if all who are not
    abandoned weigh too little, and it is none just if the active signers reach the threshold together and without any one of them. -/
theorem risk_exact (options : SignerInactivityOptions) (text : ℚ → String) (snapshot : TreasurySignerSnapshot) :
    (∀ now later, now ≤ later →
      (assessTreasury (newWatcher options) text snapshot now).risk.severity ≤
          (assessTreasury (newWatcher options) text snapshot later).risk.severity ∧
        List.Forall₂ (fun first second => second.key = first.key ∧ second.decayedWeight ≤ first.decayedWeight)
          (assessTreasury (newWatcher options) text snapshot now).signers
          (assessTreasury (newWatcher options) text snapshot later).signers ∧
        ∀ s ∈ snapshot.signers, s.weight * decayFactor (newWatcher options) (inactiveDays s.lastActiveAt later) ≤
          s.weight * decayFactor (newWatcher options) (inactiveDays s.lastActiveAt now)) ∧
    ∀ now,
      ((assessTreasury (newWatcher options) text snapshot now).risk = .CRITICAL ↔
        weightOf (reachable (newWatcher options) now snapshot.signers) < requiredOf snapshot) ∧
      ((assessTreasury (newWatcher options) text snapshot now).risk = .OK ↔
        Resilient (requiredOf snapshot) (active (newWatcher options) now snapshot.signers)) := by
  refine ⟨?_,fun now => ⟨critical_iff _ text snapshot now,ok_iff _ text snapshot now⟩⟩
  intro now later le
  refine ⟨severity_mono _ text snapshot le,?_,fun s _ => (decayed_antitone le s).1⟩
  rw [assessTreasury,assessTreasury,List.forall₂_map_left_iff,List.forall₂_map_right_iff,List.forall₂_same]
  exact fun s _ => ⟨rfl,(decayed_antitone le s).2⟩

end StellarAlerts.SignerInactivity
