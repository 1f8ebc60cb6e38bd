import StellarAlerts.DrainDetector

/-!
What the flows of an analysis say about the balances. There is one flow for each asset
text that is listed before or after the envelope, it balances the two, and it is marked
as drained by the exact ratio (`flows_balance`).
-/
namespace StellarAlerts.DrainFlows
open DecimalAmounts DrainDetector IntegerText OrderedMaps Utf16Text

@[simp] theorem readStroops_nat (n : Nat) : readStroops (toString n) = n := by
  obtain ⟨digits,value⟩ := decimal_toString n
  rw [readStroops,BigInt_digits digits,value]
  rfl

@[simp] theorem readStroops_int (n : Nat) : readStroops (toString (n : Int)) = n := readStroops_nat n

section Flows
variable (toUpperCase : String → String)

def listedKeys (snapshot : AccountStateSnapshot) : List String :=
  (snapshot.nativeBalance.map fun _ => "native").toList ++
    (snapshot.balances.getD []).map fun entry => canonicalAssetKey toUpperCase entry.asset

/-- Every amount that is listed can be read. -/
def AmountsParse (snapshot : AccountStateSnapshot) : Prop :=
  (∀ native ∈ snapshot.nativeBalance, (tryParseAmountToStroops (some native)).isSome = true) ∧
    ∀ entry ∈ snapshot.balances.getD [], (tryParseAmountToStroops (some entry.balance)).isSome = true

instance (snapshot : AccountStateSnapshot) : Decidable (AmountsParse snapshot) := by
  unfold AmountsParse
  infer_instance

/-- The last amount that is listed under a key, or nothing. -/
def balanceUnder (snapshot : AccountStateSnapshot) (key : String) : Nat :=
  (((listedBalances toUpperCase snapshot).reverse.find? fun entry => entry.1 = key).map Prod.snd).getD 0

variable {toUpperCase}

theorem get_readBalances (snapshot : AccountStateSnapshot) (key : String) :
    ((readBalances toUpperCase (some snapshot)).get key).getD 0 = balanceUnder toUpperCase snapshot key := by
  rw [readBalances,Option.elim_some,get_ofList,balanceUnder]

theorem mem_keys_ofList {entries : List (String × Nat)} {key : String} :
    key ∈ (OrderedMap.ofList entries).keys ↔ key ∈ entries.map Prod.fst := by
  rw [mem_keys_iff]
  simp only [get_ofList,Option.map_eq_some_iff]
  constructor
  · rintro ⟨v,entry,found,-⟩
    have listed := List.mem_reverse.mp (List.mem_of_find?_eq_some found)
    have own : entry.1 = key := by simpa using List.find?_some found
    exact own ▸ List.mem_map_of_mem listed
  · intro listed
    obtain ⟨entry,member,own⟩ := List.mem_map.mp listed
    cases found : entries.reverse.find? fun e => e.1 = key with
    | none =>
      have absent := List.find?_eq_none.mp found entry (List.mem_reverse.mpr member)
      simp [own] at absent
    | some first => exact ⟨first.2,first,rfl,rfl⟩

theorem listedBalances_keys {snapshot : AccountStateSnapshot} (parses : AmountsParse snapshot) :
    (listedBalances toUpperCase snapshot).map Prod.fst = listedKeys toUpperCase snapshot := by
  obtain ⟨native,others⟩ := parses
  have first : ((tryParseAmountToStroops snapshot.nativeBalance).map fun amount => ("native",amount)).toList.map Prod.fst =
      (snapshot.nativeBalance.map fun _ => "native").toList := by
    cases isNative : snapshot.nativeBalance with
    | none => rfl
    | some text =>
      obtain ⟨amount,read⟩ := Option.isSome_iff_exists.mp (native text isNative)
      simp [read]
  have rest : ∀ entries : List AssetBalance, (∀ entry ∈ entries, (tryParseAmountToStroops (some entry.balance)).isSome = true) →
      (entries.filterMap fun entry => (tryParseAmountToStroops (some entry.balance)).map fun amount =>
        (canonicalAssetKey toUpperCase entry.asset,amount)).map Prod.fst =
        entries.map fun entry => canonicalAssetKey toUpperCase entry.asset := by
    intro entries all
    induction entries with
    | nil => rfl
    | cons entry entries ih =>
      obtain ⟨amount,read⟩ := Option.isSome_iff_exists.mp (all entry (by simp))
      have others := ih fun e listed => all e (by simp [listed])
      simp only [List.filterMap_cons,read,Option.map_some,List.map_cons,others]
  rw [listedBalances,listedKeys,List.map_append,first,rest _ others]

theorem keys_readBalances {snapshot : AccountStateSnapshot} (parses : AmountsParse snapshot) {key : String} :
    key ∈ (readBalances toUpperCase (some snapshot)).keys ↔ key ∈ listedKeys toUpperCase snapshot := by
  rw [readBalances,Option.elim_some,mem_keys_ofList,listedBalances_keys parses]

structure Balanced (thresholds : DrainThresholds) (pre post : Nat) (f : AssetFlow) : Prop where
  preIs : readStroops f.preBalanceStroops = pre
  postIs : readStroops f.postBalanceStroops = post
  balance : readStroops f.preBalanceStroops + readStroops f.inflowStroops =
    readStroops f.postBalanceStroops + readStroops f.outflowStroops
  inflow : 0 ≤ readStroops f.inflowStroops
  outflow : 0 ≤ readStroops f.outflowStroops
  oneWay : readStroops f.inflowStroops = 0 ∨ readStroops f.outflowStroops = 0
  drained_iff : f.drained = true ↔ 0 < readStroops f.outflowStroops ∧
    (round (thresholds.nearTotalOutflowRatio * 10000) / 10000 : ℚ) ≤
      readStroops f.outflowStroops / readStroops f.preBalanceStroops

theorem ratio_iff {outflow pre : Nat} {numerator : Int} (some_ : 0 < pre) :
    pre * numerator ≤ outflow * 10000 ↔ (numerator / 10000 : ℚ) ≤ ((outflow : Int) : ℚ) / ((pre : Int) : ℚ) := by
  have positive : (0 : ℚ) < ((pre : Int) : ℚ) := by exact_mod_cast some_
  rw [div_le_div_iff₀ (by norm_num) positive]
  constructor
  · intro small
    have cast : ((pre * numerator : Int) : ℚ) ≤ ((outflow * 10000 : Int) : ℚ) := Int.cast_le.mpr small
    push_cast at cast ⊢
    linarith
  · intro small
    have cast : ((pre * numerator : Int) : ℚ) ≤ ((outflow * 10000 : Int) : ℚ) := by
      push_cast at small ⊢
      linarith
    exact Int.cast_le.mp cast

theorem flowOf_balanced (pre post : OrderedMap String Nat) (assets : OrderedMap String AssetRef) (thresholds : DrainThresholds)
    (key : String) :
    Balanced thresholds ((pre.get key).getD 0) ((post.get key).getD 0) (flowOf pre (some post) assets thresholds key) := by
  generalize before : (pre.get key).getD 0 = a
  generalize after : (post.get key).getD 0 = b
  have amounts : readStroops (flowOf pre (some post) assets thresholds key).preBalanceStroops = a ∧
      readStroops (flowOf pre (some post) assets thresholds key).postBalanceStroops = b ∧
      readStroops (flowOf pre (some post) assets thresholds key).outflowStroops = (a - b : Nat) ∧
      readStroops (flowOf pre (some post) assets thresholds key).inflowStroops = (b - a : Nat) := by
    simp only [flowOf,before,after,readStroops_nat]
    refine ⟨trivial,trivial,?_,?_⟩
    · by_cases less : b < a
      · simp [less]
      · rw [if_neg less]
        omega
    · by_cases more : a < b
      · simp [more]
      · rw [if_neg more]
        omega
  obtain ⟨preIs,postIs,outIs,inIs⟩ := amounts
  refine ⟨preIs,postIs,?_,?_,?_,?_,?_⟩
  · rw [preIs,postIs,outIs,inIs]
    omega
  · rw [inIs]
    omega
  · rw [outIs]
    omega
  · rw [outIs,inIs]
    omega
  · have drained : (flowOf pre (some post) assets thresholds key).drained = true ↔
        0 < a - b ∧ 0 < a ∧ a * ratioNumerator thresholds ≤ ((a - b : Nat) : Int) * 10000 := by
      have outflow : (if b < a then a - b else 0) = a - b := by
        by_cases less : b < a
        · simp [less]
        · rw [if_neg less]
          omega
      simp only [flowOf,before,after,outflow,Bool.and_eq_true,decide_eq_true_eq]
      tauto
    rw [drained,outIs,preIs]
    constructor
    · rintro ⟨out,some_,ratio⟩
      exact ⟨by omega,(ratio_iff some_).mp ratio⟩
    · rintro ⟨out,ratio⟩
      have some_ : 0 < a := by omega
      exact ⟨by omega,some_,(ratio_iff some_).mpr ratio⟩

variable {sourceAccount : String} {operations : List TransferOperation} {preState postState : Option (List AccountStateSnapshot)}
  {thresholds : DrainThresholds} {pre post : AccountStateSnapshot}

section
variable (preIs : snapshotFor preState sourceAccount = some pre)
include preIs

theorem flows_eq (postIs : snapshotFor postState sourceAccount = some post) :
    flows toUpperCase sourceAccount preState postState thresholds =
      (sortTexts ((readBalances toUpperCase (some pre)).keys ++ (readBalances toUpperCase (some post)).keys).dedup).map
        (flowOf (readBalances toUpperCase (some pre)) (some (readBalances toUpperCase (some post)))
          (collectAssets toUpperCase (some pre)) thresholds) := by
  simp only [flows,buildFlows,preIs,postIs,Option.map_some,Option.getD_some]

theorem flow_keys (postIs : snapshotFor postState sourceAccount = some post) :
    (flows toUpperCase sourceAccount preState postState thresholds).map AssetFlow.canonicalKey =
      sortTexts ((readBalances toUpperCase (some pre)).keys ++ (readBalances toUpperCase (some post)).keys).dedup := by
  have own : AssetFlow.canonicalKey ∘ flowOf (readBalances toUpperCase (some pre)) (some (readBalances toUpperCase (some post)))
      (collectAssets toUpperCase (some pre)) thresholds = id := rfl
  rw [flows_eq preIs postIs,List.map_map,own,List.map_id]

theorem flow_balanced (postIs : snapshotFor postState sourceAccount = some post) {f : AssetFlow}
    (listed : f ∈ flows toUpperCase sourceAccount preState postState thresholds) :
    Balanced thresholds (balanceUnder toUpperCase pre f.canonicalKey) (balanceUnder toUpperCase post f.canonicalKey) f := by
  rw [flows_eq preIs postIs,List.mem_map] at listed
  obtain ⟨key,-,rfl⟩ := listed
  have balanced := flowOf_balanced (readBalances toUpperCase (some pre)) (readBalances toUpperCase (some post))
    (collectAssets toUpperCase (some pre)) thresholds key
  rw [get_readBalances,get_readBalances] at balanced
  exact balanced

end

theorem flow_amounts (f : AssetFlow) (isFlow : ∃ pre post assets key, f = flowOf pre post assets thresholds key) :
    (∃ n : Nat, readStroops f.outflowStroops = n) ∧ ∃ n : Nat, readStroops f.inflowStroops = n := by
  obtain ⟨pre,post,assets,key,rfl⟩ := isFlow
  exact ⟨⟨_,readStroops_nat _⟩,⟨_,readStroops_nat _⟩⟩

theorem readStroops_sum {fs : List AssetFlow} {amount : AssetFlow → Int} (natural : ∀ f ∈ fs, ∃ n : Nat, amount f = n) :
    readStroops (toString (fs.map amount).sum) = (fs.map amount).sum := by
  have isNat : ∃ n : Nat, (fs.map amount).sum = n := by
    induction fs with
    | nil => exact ⟨0,rfl⟩
    | cons f fs ih =>
      obtain ⟨n,first⟩ := natural f (by simp)
      obtain ⟨m,others⟩ := ih fun g listed => natural g (by simp [listed])
      refine ⟨n + m,?_⟩
      rw [List.map_cons,List.sum_cons,first,others]
      push_cast
      rfl
  obtain ⟨n,is⟩ := isNat
  rw [is,readStroops_int]

/-- There is a flow for each key that is listed on either side, it balances what is listed, and the totals are those of the flows. -/
theorem flows_balance (toUpperCase : String → String) (operations : List TransferOperation) (thresholds : DrainThresholds)
    (preIs : snapshotFor preState sourceAccount = some pre) (postIs : snapshotFor postState sourceAccount = some post)
    (preParses : AmountsParse pre) (postParses : AmountsParse post) :
    let analysis := (analyzeDrain toUpperCase sourceAccount operations preState postState thresholds).1
    (analysis.flows.map AssetFlow.canonicalKey).Nodup ∧
    (∀ key, key ∈ analysis.flows.map AssetFlow.canonicalKey ↔
      key ∈ listedKeys toUpperCase pre ∨ key ∈ listedKeys toUpperCase post) ∧
    (∀ f ∈ analysis.flows,
      Balanced thresholds (balanceUnder toUpperCase pre f.canonicalKey) (balanceUnder toUpperCase post f.canonicalKey) f) ∧
    readStroops analysis.totalOutflowStroops = (analysis.flows.map fun f => readStroops f.outflowStroops).sum ∧
    readStroops analysis.totalInflowStroops = (analysis.flows.map fun f => readStroops f.inflowStroops).sum := by
  intro analysis
  have isFlow : ∀ f ∈ flows toUpperCase sourceAccount preState postState thresholds,
      ∃ pre post assets key, f = flowOf pre post assets thresholds key := by
    intro f listed
    rw [flows_eq preIs postIs,List.mem_map] at listed
    obtain ⟨key,-,rfl⟩ := listed
    exact ⟨_,_,_,key,rfl⟩
  refine ⟨?_,?_,fun f listed => flow_balanced preIs postIs listed,?_,?_⟩
  · show ((flows toUpperCase sourceAccount preState postState thresholds).map AssetFlow.canonicalKey).Nodup
    rw [flow_keys preIs postIs]
    exact (List.mergeSort_perm _ _).nodup_iff.mpr (List.nodup_dedup _)
  · intro key
    show key ∈ (flows toUpperCase sourceAccount preState postState thresholds).map AssetFlow.canonicalKey ↔ _
    rw [flow_keys preIs postIs,mem_sortTexts,List.mem_dedup,List.mem_append,keys_readBalances preParses,
      keys_readBalances postParses]
  · exact readStroops_sum fun f listed => (flow_amounts f (isFlow f listed)).1
  · exact readStroops_sum fun f listed => (flow_amounts f (isFlow f listed)).2

end Flows

/-- A credit of one account, with its amount. -/
def credit (code issuer balance : String) : AssetBalance := ⟨⟨.creditAlphanumeric,some code,some issuer,none⟩,balance,none⟩

def snapshot (nativeBalance : String) (balances : List AssetBalance) : AccountStateSnapshot :=
  ⟨"GSOURCE",some nativeBalance,some balances⟩

theorem flows_balance_paid_and_received :
    let before := snapshot "100" [credit "USD" "GISSUER" "5.5"]
    let after := snapshot "90.25" [credit "EUR" "GISSUER" "1"]
    let thresholds : DrainThresholds := ⟨17 / 20,.finite 3,.finite 8,10⟩
    let analysis := (analyzeDrain String.toUpper "GSOURCE" [] (some [before]) (some [after]) thresholds).1
    AmountsParse before ∧ AmountsParse after ∧
    (∀ f ∈ analysis.flows, Balanced thresholds (balanceUnder String.toUpper before f.canonicalKey)
      (balanceUnder String.toUpper after f.canonicalKey) f) ∧
    readStroops analysis.totalOutflowStroops = (analysis.flows.map fun f => readStroops f.outflowStroops).sum := by
  intro before after thresholds analysis
  have beforeParses : AmountsParse before := by decide
  have afterParses : AmountsParse after := by decide
  obtain ⟨-,-,balanced,outflow,-⟩ := flows_balance String.toUpper [] thresholds
    (show snapshotFor (some [before]) "GSOURCE" = some before from rfl)
    (show snapshotFor (some [after]) "GSOURCE" = some after from rfl) beforeParses afterParses
  exact ⟨beforeParses,afterParses,balanced,outflow⟩

end StellarAlerts.DrainFlows
