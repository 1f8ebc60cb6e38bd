import StellarAlerts.JsonTexts
import StellarAlerts.Repetitions

/-!
The payments of the last day, wallet by wallet, in sorted sets. A payment that repeats
another is written on top of it, and what the window is read of has no upper end: the
statistics count what is new from the window's beginning on (`getStats_eq`).
-/
namespace StellarAlerts.RollingVolume
open JsonTexts (isNumber)
open Numbers OrderedMaps Repetitions

/-- What a member is the text of; texts of the same timestamp and amount are the same. -/
structure RollingVolumeEntry where
  timestamp : ℚ
  amount : ℚ
deriving DecidableEq

structure RollingVolumeStats where
  count : Nat
  total : ℚ
  mean : ℚ
  standardDeviation : ℚ
  ema : ℚ
  emaVariance : ℚ
  oldestAt : Option ℚ
  newestAt : Option ℚ
deriving DecidableEq

/-- What the runtime computes or orders: roots, and the texts of members. -/
structure Platform where
  sqrt : ℚ → ℚ
  textBefore : RollingVolumeEntry → RollingVolumeEntry → Bool

structure RollingVolumeServiceOptions where
  windowMs : ℚ
  emaAlpha : ℚ
  keyPrefix : String

def defaultOptions : RollingVolumeServiceOptions := ⟨24 * 60 * 60 * 1000,1 / 5,"analytics:wallet:volume"⟩

/-- The members with their scores. -/
abbrev SortedSet := OrderedMap RollingVolumeEntry ℚ

/-- The sets by their keys. -/
abbrev Redis := OrderedMap String SortedSet

/-- A bound of a range of scores that is written as a text; none where it is no float. The value of a number is left
    open, as none is written here. -/
def scoreBound (text : String) : Option (Option Number) :=
  if text = "+inf" ∨ text = "inf" then some (some (.infinite false))
  else if text = "-inf" then some (some (.infinite true))
  else if isNumber text.toList then some none
  else none

def zadd (set : SortedSet) (score : ℚ) (member : RollingVolumeEntry) : SortedSet := set.set member score

/-- Bounds that are no floats are an error of the command, and nothing is removed. -/
def zremrangebyscore (set : SortedSet) (min max : Option Number) : SortedSet :=
  match min, max with
  | some min, some max => set.entries.foldl (fun left e => if min.le (.finite e.2) && (Number.finite e.2).le max then left.delete e.1 else left) set
  | _, _ => set

def zrangebyscore (p : Platform) (set : SortedSet) (min max : Number) : List RollingVolumeEntry :=
  ((set.entries.filter fun e => min.le (.finite e.2) && (Number.finite e.2).le max).mergeSort fun a b =>
    a.2 < b.2 || a.2 = b.2 && p.textBefore a.1 b.1).map Prod.fst

section Service
variable (p : Platform) (options : RollingVolumeServiceOptions)

def keyFor (walletId : String) : String := options.keyPrefix ++ ":" ++ walletId
def setOf (redis : Redis) (walletId : String) : SortedSet := (redis.get (keyFor options walletId)).getD .empty

/-- Both commands of the transaction. An amount that is no number is refused before. -/
def record (redis : Redis) (walletId : String) (amount : Number) (timestamp : ℚ) : Redis :=
  match amount with
  | .finite numericAmount =>
    let added := zadd (setOf options redis walletId) timestamp ⟨timestamp,numericAmount⟩
    let pruned := zremrangebyscore added ((scoreBound "-1+inf").bind id) (some (.finite (timestamp - options.windowMs)))
    redis.set (keyFor options walletId) pruned
  | _ => redis

def movingAverage (first : ℚ) (amounts : List ℚ) : ℚ × ℚ :=
  amounts.foldl (fun (ema,emaVariance) amount =>
    (options.emaAlpha * amount + (1 - options.emaAlpha) * ema,
      options.emaAlpha * (amount - ema) ^ 2 + (1 - options.emaAlpha) * emaVariance)) (first,0)

def computeStats (entries : List RollingVolumeEntry) : RollingVolumeStats :=
  match entries with
  | [] => ⟨0,0,0,0,0,0,none,none⟩
  | oldest :: later =>
    let count := entries.length
    let total := (entries.map RollingVolumeEntry.amount).sum
    let mean := total / count
    let variance := if 1 < count then (entries.map fun e => (e.amount - mean) ^ 2).sum / (count - 1 : ℚ) else 0
    let average := movingAverage options oldest.amount (later.map RollingVolumeEntry.amount)
    { count
      total
      mean
      standardDeviation := p.sqrt variance
      ema := average.1
      emaVariance := average.2
      oldestAt := some oldest.timestamp
      newestAt := (entries.getLast?).map RollingVolumeEntry.timestamp }

def parseEntries (raw : List RollingVolumeEntry) : List RollingVolumeEntry := raw.mergeSort fun a b => a.timestamp ≤ b.timestamp

def getStats (redis : Redis) (walletId : String) (asOf : ℚ) : RollingVolumeStats :=
  computeStats p options (parseEntries (zrangebyscore p (setOf options redis walletId)
    (.finite (asOf - options.windowMs)) (.infinite false)))

end Service

/-- A call of `recordPayment`. -/
structure RecordCall where
  walletId : String
  amount : Number
  timestamp : ℚ

def RecordCall.paid (walletId : String) (call : RecordCall) : Option RollingVolumeEntry :=
  if call.walletId = walletId then
    match call.amount with
    | .finite amount => some ⟨call.timestamp,amount⟩
    | _ => none
  else none

def payments (calls : List RecordCall) (walletId : String) : List RollingVolumeEntry := calls.filterMap (RecordCall.paid walletId)
def run (options : RollingVolumeServiceOptions) (calls : List RecordCall) : Redis :=
  calls.foldl (fun redis call => record options redis call.walletId call.amount call.timestamp) .empty

section Recorded
variable {p : Platform} {options : RollingVolumeServiceOptions}

theorem unbounded : scoreBound "-1+inf" = none := by decide

theorem keyFor_inj {a b : String} (same : keyFor options a = keyFor options b) : a = b := by
  rw [← String.toList_inj] at same ⊢
  simpa [keyFor] using same

theorem setOf_record (redis : Redis) (call : RecordCall) (walletId : String) :
    setOf options (record options redis call.walletId call.amount call.timestamp) walletId =
      ((call.paid walletId).toList.foldl (fun set e => set.set e e.timestamp) (setOf options redis walletId)) := by
  by_cases own : call.walletId = walletId
  · subst own
    cases is : call.amount with
    | finite amount => simp [record,RecordCall.paid,is,setOf,get_set,unbounded,zremrangebyscore,zadd]
    | nan => simp [record,RecordCall.paid,is]
    | infinite negative => simp [record,RecordCall.paid,is]
  · have other : ¬ keyFor options walletId = keyFor options call.walletId := fun same => own (keyFor_inj same).symm
    cases is : call.amount with
    | finite amount => simp [record,RecordCall.paid,own,setOf,get_set,other]
    | nan => simp [record,RecordCall.paid,own]
    | infinite negative => simp [record,RecordCall.paid,own]

theorem setOf_run (calls : List RecordCall) (walletId : String) :
    setOf options (run options calls) walletId =
      (payments calls walletId).foldl (fun set e => set.set e e.timestamp) .empty := by
  induction calls using List.reverseRecOn with
  | nil => rfl
  | append_singleton calls call ih =>
    rw [run,List.foldl_append,← run,List.foldl_cons,List.foldl_nil,setOf_record,ih,payments,payments,List.filterMap_append,
      List.foldl_append]
    cases paid : call.paid walletId <;> simp [paid]

theorem scores_run (list : List RollingVolumeEntry) (set : SortedSet) (before : ∀ e ∈ set.entries, e.2 = e.1.timestamp) :
    ∀ e ∈ (list.foldl (fun set e => set.set e e.timestamp) set).entries, e.2 = e.1.timestamp := by
  induction list generalizing set with
  | nil => exact before
  | cons a rest ih =>
    refine ih (set.set a a.timestamp) fun e member => ?_
    have found := get_eq_some.mpr (show (e.1,e.2) ∈ (set.set a a.timestamp).entries from member)
    rw [get_set] at found
    split at found
    · rename_i own
      rw [own]
      exact (Option.some.inj found).symm
    · exact before _ (get_eq_some.mp found)

theorem entries_run (calls : List RecordCall) (walletId : String) :
    (setOf options (run options calls) walletId).entries =
      (news [] (payments calls walletId)).map fun e => (e,e.timestamp) := by
  have keys := keys_foldl_set RollingVolumeEntry.timestamp (payments calls walletId) .empty
  have scores := scores_run (payments calls walletId) .empty (by simp)
  rw [← @setOf_run options] at keys scores
  have listed : (setOf options (run options calls) walletId).entries.map Prod.fst = news [] (payments calls walletId) := keys
  rw [← listed,List.map_map]
  conv_lhs => rw [← List.map_id (setOf options (run options calls) walletId).entries]
  refine List.map_congr_left fun e member => ?_
  rw [Function.comp_apply,← scores e member]
  rfl

theorem getStats_eq (calls : List RecordCall) (walletId : String) (asOf : ℚ) :
    (getStats p options (run options calls) walletId asOf).count =
      ((news [] (payments calls walletId)).filter fun e => asOf - options.windowMs ≤ e.timestamp).length ∧
    (getStats p options (run options calls) walletId asOf).total =
      (((news [] (payments calls walletId)).filter fun e => asOf - options.windowMs ≤ e.timestamp).map
        RollingVolumeEntry.amount).sum := by
  have stats : ∀ entries : List RollingVolumeEntry, (computeStats p options entries).count = entries.length ∧
      (computeStats p options entries).total = (entries.map RollingVolumeEntry.amount).sum := by
    intro entries
    cases entries <;> exact ⟨rfl,rfl⟩
  have read : (parseEntries (zrangebyscore p (setOf options (run options calls) walletId) (.finite (asOf - options.windowMs))
      (.infinite false))).Perm ((news [] (payments calls walletId)).filter fun e => asOf - options.windowMs ≤ e.timestamp) := by
    refine (List.mergeSort_perm _ _).trans ?_
    rw [zrangebyscore]
    refine ((List.mergeSort_perm _ _).map Prod.fst).trans ?_
    rw [entries_run,List.filter_map,List.map_map]
    have own : Prod.fst ∘ (fun e : RollingVolumeEntry => (e,e.timestamp)) = id := rfl
    rw [own,List.map_id]
    refine List.Perm.of_eq (List.filter_congr fun e _ => ?_)
    simp [Number.le,Number.lt,Number.same,le_iff_lt_or_eq]
  obtain ⟨count,total⟩ := stats (parseEntries (zrangebyscore p (setOf options (run options calls) walletId)
    (.finite (asOf - options.windowMs)) (.infinite false)))
  rw [getStats,count,total]
  exact ⟨read.length_eq,(read.map _).sum_eq⟩

end Recorded
end StellarAlerts.RollingVolume
