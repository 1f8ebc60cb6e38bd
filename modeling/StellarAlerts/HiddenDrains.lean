import StellarAlerts.DrainFlows
import StellarAlerts.SeparatedText

/-!
Which emptied assets are reported. Where no two listed assets differ in the case of
their letters only, each keeps its own balance and every one that is emptied is among
the drained (`emptied_reported`); of two that do, one stands for both
(`hidden_by_case`).
-/
namespace StellarAlerts.HiddenDrains
open DecimalAmounts DrainDetector DrainFlows OrderedMaps
open SeparatedText (cut_at)
open Utf16Text

inductive StellarAsset where
  | native
  | credit (code issuer : String)
  | pool (id : String)
deriving DecidableEq, Repr

def assetOf (asset : AssetRef) : StellarAsset :=
  match asset.type with
  | .native => .native
  | .creditAlphanumeric => .credit (asset.code.getD "") (asset.issuer.getD "")
  | .liquidityPool => .pool ((asset.poolId.or asset.code).getD "")

/-- Letters and digits. -/
def isAssetCode (code : String) : Bool := code.toList.all Char.isAlphanum

def StellarAsset.Valid : StellarAsset → Prop
  | .credit code _ => isAssetCode code = true
  | _ => True

instance (a : StellarAsset) : Decidable a.Valid := by
  cases a <;> unfold StellarAsset.Valid <;> infer_instance

/-- The runtime's capitals: of ASCII texts they are those of the letters. -/
structure Casing where
  toUpperCase : String → String
  ascii : ∀ text : String, (∀ c ∈ text.toList, c.toNat < 128) → toUpperCase text = String.ofList (text.toList.map Char.toUpper)

def StellarAsset.key (toUpperCase : String → String) : StellarAsset → String
  | .native => "native"
  | .credit code issuer => "credit_alphanumeric:" ++ toUpperCase code ++ ":" ++ issuer
  | .pool id => "liquidity_pool:" ++ id

def StellarAsset.capitals (toUpperCase : String → String) : StellarAsset → StellarAsset
  | .credit code issuer => .credit (toUpperCase code) issuer
  | a => a

def listedAssets (s : AccountStateSnapshot) : List StellarAsset :=
  (s.nativeBalance.map fun _ => StellarAsset.native).toList ++ (s.balances.getD []).map fun entry => assetOf entry.asset

/-- What is listed with an amount that can be read. -/
def holdings (s : AccountStateSnapshot) : List (StellarAsset × Nat) :=
  ((tryParseAmountToStroops s.nativeBalance).map fun native => (StellarAsset.native,native)).toList ++
    (s.balances.getD []).filterMap fun entry =>
      (tryParseAmountToStroops (some entry.balance)).map fun amount => (assetOf entry.asset,amount)

def held (s : AccountStateSnapshot) (a : StellarAsset) : Nat := (((holdings s).find? fun h => h.1 = a).map Prod.snd).getD 0

structure ListsAssets (s : AccountStateSnapshot) : Prop where
  distinct : (listedAssets s).Nodup
  valid : ∀ a ∈ listedAssets s, a.Valid
  parses : AmountsParse s

/-- No two assets that are listed differ in the case of letters only. -/
def CaseDistinct (toUpperCase : String → String) (pre post : AccountStateSnapshot) : Prop :=
  ∀ a ∈ listedAssets pre ++ listedAssets post, ∀ b ∈ listedAssets pre ++ listedAssets post,
    a.capitals toUpperCase = b.capitals toUpperCase → a = b

def EmptiedReported (toUpperCase : String → String) (analysis : DrainAnalysis) (pre post : AccountStateSnapshot) : Prop :=
  ∀ a ∈ listedAssets pre, 0 < held pre a → held post a = 0 →
    a.key toUpperCase ∈ analysis.drainedAssets ∧
      ∃ f ∈ analysis.flows, f.canonicalKey = a.key toUpperCase ∧ readStroops f.outflowStroops = held pre a

section Keys
variable {casing : Casing}

theorem canonicalAssetKey_eq (toUpperCase : String → String) (asset : AssetRef) :
    canonicalAssetKey toUpperCase asset = (assetOf asset).key toUpperCase := by
  rw [canonicalAssetKey,assetOf]
  cases asset.type <;> rfl

theorem upper_plain : ∀ n < 128, (Char.ofNat n).isAlphanum = true → (Char.ofNat n).toUpper ≠ ':' := by decide

theorem alphanum_small {c : Char} (plain : c.isAlphanum = true) : c.toNat < 128 := by
  simp only [Char.isAlphanum,Char.isAlpha,Char.isUpper,Char.isLower,Char.isDigit,Bool.or_eq_true,Bool.and_eq_true,
    decide_eq_true_eq,UInt32.le_iff_toNat_le] at plain
  have value : c.toNat = c.val.toNat := rfl
  have bounds : 'Z'.val.toNat = 90 ∧ 'z'.val.toNat = 122 ∧ '9'.val.toNat = 57 := by decide
  omega

theorem capitals_plain {code : String} (isCode : isAssetCode code = true) : ':' ∉ (casing.toUpperCase code).toList := by
  have plain : ∀ c ∈ code.toList, c.isAlphanum = true := List.all_eq_true.mp isCode
  rw [casing.ascii code fun c member => alphanum_small (plain c member),String.toList_ofList]
  intro member
  obtain ⟨c,listed,isColon⟩ := List.mem_map.mp member
  have upper := upper_plain c.toNat (alphanum_small (plain c listed))
  rw [Char.ofNat_toNat] at upper
  exact absurd isColon (upper (plain c listed))

/-- The texts of the three kinds begin differently. -/
def StellarAsset.first : StellarAsset → Char
  | .native => 'n'
  | .credit _ _ => 'c'
  | .pool _ => 'l'

theorem key_credit (toUpperCase : String → String) (code issuer : String) :
    (StellarAsset.credit code issuer).key toUpperCase = "credit_alphanumeric:" ++ toUpperCase code ++ ":" ++ issuer := rfl
theorem key_pool (toUpperCase : String → String) (id : String) :
    (StellarAsset.pool id).key toUpperCase = "liquidity_pool:" ++ id := rfl

theorem key_first (toUpperCase : String → String) (a : StellarAsset) : (a.key toUpperCase).toList.head? = some a.first := by
  cases a with
  | native =>
    show "native".toList.head? = some 'n'
    simp
  | credit code issuer =>
    show _ = some 'c'
    rw [key_credit,String.append_assoc,String.append_assoc,String.toList_append]
    simp
  | pool id =>
    show _ = some 'l'
    rw [key_pool,String.toList_append]
    simp

theorem capitals_of_key {a b : StellarAsset} (validA : a.Valid) (validB : b.Valid)
    (same : a.key casing.toUpperCase = b.key casing.toUpperCase) :
    a.capitals casing.toUpperCase = b.capitals casing.toUpperCase := by
  have first : a.first = b.first := by
    have heads := key_first casing.toUpperCase a
    rw [same,key_first] at heads
    exact (Option.some.inj heads).symm
  cases a with
  | native =>
    cases b with
    | native => rfl
    | credit code issuer => simp [StellarAsset.first] at first
    | pool id => simp [StellarAsset.first] at first
  | credit code issuer =>
    cases b with
    | native => simp [StellarAsset.first] at first
    | credit code' issuer' =>
      have joined : (casing.toUpperCase code).toList ++ ':' :: issuer.toList =
          (casing.toUpperCase code').toList ++ ':' :: issuer'.toList := by
        rw [key_credit,key_credit,← String.toList_inj] at same
        simpa [String.append_assoc] using same
      obtain ⟨codes,issuers⟩ := cut_at (capitals_plain validA) (capitals_plain validB) joined
      rw [StellarAsset.capitals,StellarAsset.capitals,String.toList_inj.mp codes,String.toList_inj.mp issuers]
    | pool id => simp [StellarAsset.first] at first
  | pool id =>
    cases b with
    | native => simp [StellarAsset.first] at first
    | credit code issuer => simp [StellarAsset.first] at first
    | pool id' =>
      have ids : id = id' := by
        rw [key_pool,key_pool,← String.toList_inj] at same
        simpa [String.toList_inj] using same
      rw [ids]

end Keys

section Held
variable {toUpperCase : String → String}

theorem listedBalances_eq (s : AccountStateSnapshot) :
    listedBalances toUpperCase s = (holdings s).map fun h => (h.1.key toUpperCase,h.2) := by
  rw [listedBalances,holdings,List.map_append,List.map_filterMap]
  congr 1
  · cases tryParseAmountToStroops s.nativeBalance <;> rfl
  · refine List.filterMap_congr fun entry _ => ?_
    cases tryParseAmountToStroops (some entry.balance) with
    | none => rfl
    | some amount => simp [canonicalAssetKey_eq]

theorem holdings_sublist (s : AccountStateSnapshot) : ((holdings s).map Prod.fst).Sublist (listedAssets s) := by
  rw [holdings,listedAssets,List.map_append]
  refine List.Sublist.append ?_ ?_
  · cases native : s.nativeBalance with
    | none => simp [tryParseAmountToStroops]
    | some text => cases tryParseAmountToStroops (some text) <;> simp
  · induction s.balances.getD [] with
    | nil => simp
    | cons entry entries ih =>
      rw [List.filterMap_cons,List.map_cons]
      cases tryParseAmountToStroops (some entry.balance) with
      | none => exact ih.cons _
      | some amount => exact ih.cons_cons _

theorem balanceUnder_key {s : AccountStateSnapshot} {a : StellarAsset} (lists : ListsAssets s)
    (apart : ∀ b ∈ listedAssets s, b.key toUpperCase = a.key toUpperCase → b = a) :
    balanceUnder toUpperCase s (a.key toUpperCase) = held s a := by
  have member : ∀ h ∈ holdings s, h.1 ∈ listedAssets s := fun h listed =>
    (holdings_sublist s).subset (List.mem_map_of_mem listed)
  have unique : ∀ h ∈ holdings s, ∀ h' ∈ holdings s, h.1 = h'.1 → h = h' := fun h listed h' listed' same =>
    List.inj_on_of_nodup_map ((holdings_sublist s).nodup lists.distinct) listed listed' same
  rw [balanceUnder,held,listedBalances_eq,← List.map_reverse,List.find?_map]
  cases found : (holdings s).find? fun h => h.1 = a with
  | none =>
    have none_ : (holdings s).reverse.find? ((fun entry => decide (entry.1 = a.key toUpperCase)) ∘
        fun h => (h.1.key toUpperCase,h.2)) = none := by
      rw [List.find?_eq_none]
      intro h listed
      have isListed := List.mem_reverse.mp listed
      intro own
      have same : h.1 = a := apart h.1 (member h isListed) (by simpa using own)
      exact List.find?_eq_none.mp found h isListed (by simpa using same)
    rw [none_]
    rfl
  | some h =>
    have isA : h.1 = a := by simpa using List.find?_some found
    cases last : (holdings s).reverse.find? ((fun entry => decide (entry.1 = a.key toUpperCase)) ∘
        fun h => (h.1.key toUpperCase,h.2)) with
    | none =>
      have absent := List.find?_eq_none.mp last h (List.mem_reverse.mpr (List.mem_of_find?_eq_some found))
      simp [isA] at absent
    | some h' =>
      have listed := List.mem_reverse.mp (List.mem_of_find?_eq_some last)
      have isA' : h'.1 = a := apart h'.1 (member h' listed) (by simpa using List.find?_some last)
      rw [unique h' listed h (List.mem_of_find?_eq_some found) (isA'.trans isA.symm)]
      rfl

end Held

section Reported
variable {casing : Casing} {sourceAccount : String} {preState postState : Option (List AccountStateSnapshot)}
  {thresholds : DrainThresholds} {pre post : AccountStateSnapshot}

theorem ratio_le_one (ratio : thresholds.nearTotalOutflowRatio ≤ 1) :
    (round (thresholds.nearTotalOutflowRatio * 10000) / 10000 : ℚ) ≤ 1 := by
  have half := round_le_add_half (thresholds.nearTotalOutflowRatio * 10000)
  have below : (round (thresholds.nearTotalOutflowRatio * 10000) : ℚ) < ((10001 : Int) : ℚ) := by
    push_cast
    linarith
  have whole : round (thresholds.nearTotalOutflowRatio * 10000) ≤ 10000 := Int.lt_add_one_iff.mp (Int.cast_lt.mp below)
  rw [div_le_one (by norm_num)]
  exact_mod_cast whole

/-- Where no two listed assets differ in the case of letters only, every asset that is emptied is reported. -/
theorem emptied_reported (casing : Casing) (operations : List TransferOperation)
    (preIs : snapshotFor preState sourceAccount = some pre) (postIs : snapshotFor postState sourceAccount = some post)
    (preLists : ListsAssets pre) (postLists : ListsAssets post) (cases_ : CaseDistinct casing.toUpperCase pre post)
    (ratio : thresholds.nearTotalOutflowRatio ≤ 1) :
    EmptiedReported casing.toUpperCase
      (analyzeDrain casing.toUpperCase sourceAccount operations preState postState thresholds).1 pre post := by
  intro a listed some_ emptied
  have apart : ∀ b ∈ listedAssets pre ++ listedAssets post, b.key casing.toUpperCase = a.key casing.toUpperCase → b = a := by
    intro b listedB same
    have validB : b.Valid := (List.mem_append.mp listedB).elim (preLists.valid b) (postLists.valid b)
    exact cases_ b listedB a (List.mem_append_left _ listed) (capitals_of_key validB (preLists.valid a listed) same)
  have before : balanceUnder casing.toUpperCase pre (a.key casing.toUpperCase) = held pre a :=
    balanceUnder_key preLists fun b listedB => apart b (List.mem_append_left _ listedB)
  have after : balanceUnder casing.toUpperCase post (a.key casing.toUpperCase) = 0 := by
    rw [balanceUnder_key postLists fun b listedB => apart b (List.mem_append_right _ listedB),emptied]
  obtain ⟨-,keys,balanced,-⟩ :=
    flows_balance casing.toUpperCase operations thresholds preIs postIs preLists.parses postLists.parses
  have key : a.key casing.toUpperCase ∈ listedKeys casing.toUpperCase pre := by
    have same : listedKeys casing.toUpperCase pre = (listedAssets pre).map (StellarAsset.key casing.toUpperCase) := by
      rw [listedKeys,listedAssets,List.map_append,List.map_map]
      congr 1
      · cases pre.nativeBalance <;> rfl
      · exact List.map_congr_left fun entry _ => canonicalAssetKey_eq _ _
    rw [same]
    exact List.mem_map_of_mem listed
  obtain ⟨f,isFlow,own⟩ := List.mem_map.mp ((keys _).mpr (.inl key))
  have flow := balanced f isFlow
  rw [own,before,after] at flow
  have outflow : readStroops f.outflowStroops = held pre a := by
    have balance := flow.balance
    rw [flow.preIs,flow.postIs] at balance
    have inflow := flow.inflow
    rcases flow.oneWay with none_ | none_ <;> omega
  have drained : f.drained = true := by
    rw [flow.drained_iff,outflow,flow.preIs,div_self (by exact_mod_cast some_.ne')]
    exact ⟨by exact_mod_cast some_,ratio_le_one ratio⟩
  exact ⟨List.mem_map.mpr ⟨f,List.mem_filter.mpr ⟨isFlow,drained⟩,own⟩,f,isFlow,own,outflow⟩

theorem undrained_of_same {toUpperCase : String → String} (operations : List TransferOperation)
    (preIs : snapshotFor preState sourceAccount = some pre) (postIs : snapshotFor postState sourceAccount = some post)
    {key : String} (same : balanceUnder toUpperCase pre key = balanceUnder toUpperCase post key) :
    key ∉ (analyzeDrain toUpperCase sourceAccount operations preState postState thresholds).1.drainedAssets := by
  intro reported
  obtain ⟨f,member,own⟩ := List.mem_map.mp reported
  obtain ⟨isFlow,drained⟩ := List.mem_filter.mp member
  have flow := flow_balanced preIs postIs isFlow
  rw [own,same] at flow
  have balance := flow.balance
  rw [flow.preIs,flow.postIs] at balance
  have some_ := (flow.drained_iff.mp drained).1
  rcases flow.oneWay with none_ | none_ <;> omega

end Reported

/-- The capitals of ASCII letters. -/
def asciiCasing : Casing := ⟨fun text => String.ofList (text.toList.map Char.toUpper),fun _ _ => rfl⟩

def defaultThresholds : DrainThresholds := ⟨17 / 20,.finite 3,.finite 8,10⟩

theorem emptied_reported_usd :
    let pre := snapshot "100" [credit "USD" "GISSUER" "5.5"]
    let post := snapshot "99" []
    0 < held pre (.credit "USD" "GISSUER") ∧ held post (.credit "USD" "GISSUER") = 0 ∧
    EmptiedReported asciiCasing.toUpperCase
      (analyzeDrain asciiCasing.toUpperCase "GSOURCE" [] (some [pre]) (some [post]) defaultThresholds).1 pre post := by
  intro pre post
  have preLists : ListsAssets pre := ⟨by decide,by decide,by decide⟩
  have postLists : ListsAssets post := ⟨by decide,by decide,by decide⟩
  have cases_ : CaseDistinct asciiCasing.toUpperCase pre post := by
    unfold CaseDistinct
    decide
  exact ⟨by decide,by decide,emptied_reported asciiCasing [] rfl rfl preLists postLists cases_ (by norm_num [defaultThresholds])⟩

/-- Of two assets that differ in the case of letters, the one that is emptied is hidden by the other. -/
theorem hidden_by_case : ¬ ∀ pre post : AccountStateSnapshot, ListsAssets pre → ListsAssets post →
    EmptiedReported asciiCasing.toUpperCase
      (analyzeDrain asciiCasing.toUpperCase "GSOURCE" [] (some [pre]) (some [post]) defaultThresholds).1 pre post := by
  intro claimed
  let pre : AccountStateSnapshot := ⟨"GSOURCE",none,some [credit "usd" "GISSUER" "100",credit "USD" "GISSUER" "5"]⟩
  let post : AccountStateSnapshot := ⟨"GSOURCE",none,some [credit "usd" "GISSUER" "0",credit "USD" "GISSUER" "5"]⟩
  have preLists : ListsAssets pre := ⟨by decide,by decide,by decide⟩
  have postLists : ListsAssets post := ⟨by decide,by decide,by decide⟩
  have reported := (claimed pre post preLists postLists (.credit "usd" "GISSUER") (by decide) (by decide) (by decide)).1
  have same : balanceUnder asciiCasing.toUpperCase pre ((StellarAsset.credit "usd" "GISSUER").key asciiCasing.toUpperCase) =
      balanceUnder asciiCasing.toUpperCase post ((StellarAsset.credit "usd" "GISSUER").key asciiCasing.toUpperCase) := by decide
  exact undrained_of_same [] rfl rfl same reported

end StellarAlerts.HiddenDrains
