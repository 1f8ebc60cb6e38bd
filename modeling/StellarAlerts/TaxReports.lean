import StellarAlerts.LotConservation

/-!
Two reports of the same gains. They agree exactly when units that earlier disposals took
cost as much as the ones behind them (`reports_agree_iff`).
-/
namespace StellarAlerts.TaxReports
open FifoLots LotConservation Numbers TaxExporter

/-- `type.toUpperCase()`. -/
def typeText : TaxTransactionType → String
  | .receive => "RECEIVE"
  | .buy => "BUY"
  | .sell => "SELL"
  | .send => "SEND"

structure Irs8949Row where
  dateAcquired : Int
  dateSold : Int
  description : String
  proceeds : ℚ
  costBasis : ℚ
  gainLoss : ℚ
  reference : String
deriving DecidableEq

/-- `a <= b` of dates; none is at most an invalid one. -/
def atMost : Option Int → Option Int → Bool
  | some time, some time' => time ≤ time'
  | _, _ => false

/-- The lots of all that was acquired of an asset until a disposal, whatever other disposals took. -/
def candidateLots (normalized : List NormalizedTaxTransaction) (transaction : NormalizedTaxTransaction) : List TaxLot :=
  (normalized.filter fun t => atMost t.date transaction.date && t.asset = transaction.asset && !isDisposalType t.type).map
    fun prior => ⟨prior.asset,|prior.quantity|,prior.usdValue,prior.date⟩

def irs8949Row (normalized : List NormalizedTaxTransaction) (transaction : NormalizedTaxTransaction) : Option Irs8949Row :=
  transaction.date.map fun date =>
    let soldQuantity := |transaction.quantity|
    let matched := matchLots ⟨soldQuantity,0,candidateLots normalized transaction⟩
    { dateAcquired := date
      dateSold := date
      description := transaction.asset ++ " " ++ typeText transaction.type
      proceeds := transaction.usdValue
      costBasis := matched.costBasis
      gainLoss := transaction.usdValue - matched.costBasis
      reference := transaction.txHash.getD "" }

def generateIrs8949Rows (transactions : List TaxExportTransaction) : Option (List Irs8949Row) :=
  ((normalizeTransactions transactions).filter fun t => isDisposalType t.type).mapM (irs8949Row (normalizeTransactions transactions))

/-- The disposals have the same cost basis and gain in both reports. -/
def Agree (transactions : List TaxExportTransaction) : Prop :=
  ∃ rows rows', buildCoinTrackerRows transactions = some rows ∧ generateIrs8949Rows transactions = some rows' ∧
    ((rows.filter fun row => isDisposalType row.type).map fun row => (row.costBasis,row.realizedGainLoss)) =
      rows'.map fun row => (row.costBasis,row.gainLoss)

section PerDisposal
variable (cost cost' : List NormalizedTaxTransaction → NormalizedTaxTransaction → ℚ)

/-- Cost basis and gain of each disposal, by what is before it. -/
def perDisposal : List NormalizedTaxTransaction → List NormalizedTaxTransaction → List (ℚ × ℚ)
  | _, [] => []
  | before, t :: later =>
    (if isDisposalType t.type then [(cost before t,t.usdValue - cost before t)] else []) ++ perDisposal (before ++ [t]) later

theorem perDisposal_eq_iff (before done : List NormalizedTaxTransaction) :
    perDisposal cost before done = perDisposal cost' before done ↔
      ∀ earlier t later, done = earlier ++ t :: later → isDisposalType t.type = true →
        cost (before ++ earlier) t = cost' (before ++ earlier) t := by
  induction done generalizing before with
  | nil => simp [perDisposal]
  | cons t later ih =>
    have rest := ih (before ++ [t])
    constructor
    · intro same
      have both : (isDisposalType t.type = true → cost before t = cost' before t) ∧
          perDisposal cost (before ++ [t]) later = perDisposal cost' (before ++ [t]) later := by
        rw [perDisposal,perDisposal] at same
        cases sold : isDisposalType t.type with
        | false => exact ⟨fun is => (Bool.false_ne_true is).elim,by simpa [sold] using same⟩
        | true =>
          simp only [sold,if_true,List.singleton_append,List.cons.injEq,Prod.mk.injEq] at same
          exact ⟨fun _ => same.1.1,same.2⟩
      intro earlier t' later' parts sold
      cases earlier with
      | nil =>
        obtain ⟨rfl,rfl⟩ := List.cons.inj parts
        simpa using both.1 sold
      | cons first earlier =>
        obtain ⟨rfl,parts'⟩ := List.cons.inj parts
        simpa using rest.mp both.2 earlier t' later' parts' sold
    · intro each
      have others := rest.mpr fun earlier t' later' parts sold => by
        simpa using each (t :: earlier) t' later' (by rw [parts,List.cons_append]) sold
      rw [perDisposal,perDisposal,others]
      cases sold : isDisposalType t.type with
      | false => rfl
      | true =>
        have own : cost before t = cost' before t := by simpa using each [] t later rfl sold
        rw [own]

theorem perDisposal_concat (before done : List NormalizedTaxTransaction) (t : NormalizedTaxTransaction) :
    perDisposal cost before (done ++ [t]) = perDisposal cost before done ++
      if isDisposalType t.type then [(cost (before ++ done) t,t.usdValue - cost (before ++ done) t)] else [] := by
  induction done generalizing before with
  | nil => simp [perDisposal]
  | cons first later ih => simp [perDisposal,ih]

end PerDisposal

/-- What a disposal costs where the lots are carried along. -/
def carried (before : List NormalizedTaxTransaction) (t : NormalizedTaxTransaction) : ℚ :=
  costOf |t.quantity| (held (history (trimmed t.asset) before))

/-- What it costs where they are opened anew. -/
def rebuilt (before : List NormalizedTaxTransaction) (t : NormalizedTaxTransaction) : ℚ :=
  costOf |t.quantity| (acquired (history (trimmed t.asset) before))

theorem carried_eq {done : List NormalizedTaxTransaction} {s : Report} (nonzero : ∀ t ∈ done, t.quantity ≠ 0)
    (ran : processAll done = some s) :
    ((s.rows.filter fun row => isDisposalType row.type).map fun row => (row.costBasis,row.realizedGainLoss)) =
      perDisposal carried [] done := by
  induction done using List.reverseRecOn generalizing s with
  | nil =>
    obtain rfl : Report.empty = s := Option.some.inj ran
    rfl
  | append_singleton done t ih =>
    rw [processAll_concat] at ran
    obtain ⟨before,ranBefore,processed⟩ := Option.bind_eq_some_iff.mp ran
    have earlier : ∀ t ∈ done, t.quantity ≠ 0 := fun t listed => nonzero t (List.mem_append_left _ listed)
    rw [perDisposal_concat,← ih earlier ranBefore]
    obtain ⟨date,-,⟨bought,rfl⟩ | ⟨sold,rfl⟩⟩ := process_cases processed
    · simp [openLot,bought]
    · have lots := (processAll_follows earlier ranBefore (trimmed t.asset)).1
      have positive : Positive ((before.lotsOf (trimmed t.asset)).map TaxLot.lot) := by
        rw [lots]
        exact positive_held (proper_history earlier)
      have matched := (matchLots_eq ⟨|t.quantity|,0,before.lotsOf (trimmed t.asset)⟩ positive).1
      simp [useLots,sold,matched,lots,carried]

section Rebuilt
variable {transactions : List TaxExportTransaction}

/-- What the reports take: valid dates that all differ, and names without blanks around them. -/
structure Tidy (transactions : List TaxExportTransaction) : Prop where
  nonzero : ∀ t ∈ transactions, normalizeQuantity t.quantity ≠ 0
  dated : ∀ t ∈ transactions, t.date.isSome = true
  distinct : (transactions.map TaxExportTransaction.date).Nodup
  trimmed : ∀ t ∈ transactions, trimmed t.asset = t.asset

variable {t : NormalizedTaxTransaction}

theorem mem_normalized (listed : t ∈ normalizeTransactions transactions) : ∃ raw ∈ transactions, normalize raw = t :=
  List.mem_map.mp (List.mem_filter.mp (List.mem_mergeSort.mp listed)).1

theorem rising_normalized (tidy : Tidy transactions) : (normalizeTransactions transactions).Pairwise fun a b =>
    ∃ time time', a.date = some time ∧ b.date = some time' ∧ time < time' := by
  have valid : ∀ t ∈ kept transactions, t.date.isSome = true := by
    intro t listed
    obtain ⟨raw,member,rfl⟩ := List.mem_map.mp (List.mem_filter.mp listed).1
    exact tidy.dated raw member
  have distinct : ((normalizeTransactions transactions).map NormalizedTaxTransaction.date).Nodup := by
    have permuted : (normalizeTransactions transactions).Perm (kept transactions) := List.mergeSort_perm _ _
    rw [(permuted.map _).nodup_iff]
    refine List.Nodup.sublist (List.filter_sublist.map _) ?_
    rw [List.map_map]
    exact tidy.distinct
  have differ : (normalizeTransactions transactions).Pairwise fun a b => a.date ≠ b.date := List.pairwise_map.mp distinct
  refine ((ordered_normalized valid).and differ).imp ?_
  rintro a b ⟨⟨time,time',is,is',before⟩,apart⟩
  refine ⟨time,time',is,is',lt_of_le_of_ne before fun same => apart ?_⟩
  rw [is,is',same]

variable {later : List NormalizedTaxTransaction}

section
variable (tidy : Tidy transactions)
include tidy

theorem candidateLots_eq {before : List NormalizedTaxTransaction}
    (parts : normalizeTransactions transactions = before ++ t :: later) (sold : isDisposalType t.type = true) :
    (candidateLots (normalizeTransactions transactions) t).map TaxLot.lot = acquired (history (trimmed t.asset) before) := by
  have rising := rising_normalized tidy
  have names : ∀ t' ∈ normalizeTransactions transactions, trimmed t'.asset = t'.asset := by
    intro t' listed
    obtain ⟨raw,member,rfl⟩ := mem_normalized listed
    exact tidy.trimmed raw member
  rw [parts,List.pairwise_append] at rising
  obtain ⟨-,behind,ahead⟩ := rising
  have none_ : (t :: later).filter (fun t' => atMost t'.date t.date && t'.asset = t.asset && !isDisposalType t'.type) = [] := by
    rw [List.filter_eq_nil_iff]
    intro t' listed
    rcases List.mem_cons.mp listed with rfl | listed
    · simp [sold]
    · obtain ⟨time,time',is,is',before_⟩ := (List.pairwise_cons.mp behind).1 t' listed
      simp [atMost,is,is',not_le.mpr before_]
  rw [candidateLots,parts,List.filter_append,none_,List.append_nil,acquired,history,List.filterMap_filterMap,← List.filterMap_eq_map',
    ← List.filterMap_eq_map',List.filterMap_filterMap,List.filterMap_filter]
  refine List.filterMap_congr fun t' listed => ?_
  obtain ⟨time,time',is,is',before_⟩ := ahead t' listed t List.mem_cons_self
  have own : trimmed t'.asset = t'.asset := names t' (by rw [parts]; exact List.mem_append_left _ listed)
  have its : trimmed t.asset = t.asset := names t (by rw [parts]; exact List.mem_append_right _ List.mem_cons_self)
  by_cases same : t'.asset = t.asset
  · cases disposal : isDisposalType t'.type <;> simp [atMost,is,is',before_.le,same,disposal,eventOf,its,TaxLot.lot]
  · simp [same,eventOf,own,its]

theorem irs8949Row_eq {before : List NormalizedTaxTransaction}
    (parts : normalizeTransactions transactions = before ++ t :: later) (sold : isDisposalType t.type = true) :
    ∃ row, irs8949Row (normalizeTransactions transactions) t = some row ∧ row.costBasis = rebuilt before t ∧
      row.gainLoss = t.usdValue - rebuilt before t := by
  have listed : t ∈ normalizeTransactions transactions := by
    rw [parts]
    exact List.mem_append_right _ List.mem_cons_self
  obtain ⟨raw,member,same⟩ := mem_normalized listed
  obtain ⟨date,dated⟩ := Option.isSome_iff_exists.mp (tidy.dated raw member)
  have its : t.date = some date := by rw [← same]; exact dated
  have earlier : ∀ t' ∈ before, t'.quantity ≠ 0 := fun t' listed' =>
    nonzero_normalized tidy.nonzero t' (by rw [parts]; exact List.mem_append_left _ listed')
  have lots := candidateLots_eq tidy parts sold
  have positive : Positive ((candidateLots (normalizeTransactions transactions) t).map TaxLot.lot) := by
    rw [lots]
    exact positive_acquired (proper_history earlier)
  have matched := (matchLots_eq ⟨|t.quantity|,0,candidateLots (normalizeTransactions transactions) t⟩ positive).1
  rw [lots,zero_add] at matched
  refine ⟨_,by rw [irs8949Row,its]; rfl,matched,?_⟩
  show t.usdValue - (matchLots _).costBasis = _
  rw [matched]
  rfl

theorem rebuilt_eq : ∃ rows', generateIrs8949Rows transactions = some rows' ∧
    (rows'.map fun row => (row.costBasis,row.gainLoss)) = perDisposal rebuilt [] (normalizeTransactions transactions) := by
  have behind : ∀ before done, normalizeTransactions transactions = before ++ done →
      ∃ rows', (done.filter fun t => isDisposalType t.type).mapM (irs8949Row (normalizeTransactions transactions)) = some rows' ∧
        (rows'.map fun row => (row.costBasis,row.gainLoss)) = perDisposal rebuilt before done := by
    intro before done parts
    induction done generalizing before with
    | nil => exact ⟨[],rfl,rfl⟩
    | cons t later ih =>
      obtain ⟨rows',made,costs_⟩ := ih (before ++ [t]) (by rw [parts,List.append_assoc,List.singleton_append])
      cases sold : isDisposalType t.type with
      | false => exact ⟨rows',by simpa [sold] using made,by simpa [perDisposal,sold] using costs_⟩
      | true =>
        obtain ⟨row,written,cost_,gain⟩ := irs8949Row_eq tidy parts sold
        exact ⟨row :: rows',by simp [sold,List.mapM_cons,written,made],by simp [perDisposal,sold,cost_,gain,costs_]⟩
  exact behind [] _ rfl

theorem agree_iff_costs : Agree transactions ↔
    perDisposal carried [] (normalizeTransactions transactions) = perDisposal rebuilt [] (normalizeTransactions transactions) := by
  obtain ⟨rows',made',costs'⟩ := rebuilt_eq tidy
  have valid : ∀ t ∈ normalizeTransactions transactions, t.date.isSome = true := by
    intro t listed
    obtain ⟨raw,member,rfl⟩ := mem_normalized listed
    exact tidy.dated raw member
  obtain ⟨s,ran⟩ := Option.isSome_iff_exists.mp (processAll_isSome.mpr valid)
  have costs_ := carried_eq (nonzero_normalized tidy.nonzero) ran
  have made : buildCoinTrackerRows transactions = some s.rows := by rw [buildCoinTrackerRows,ran,Option.map_some]
  constructor
  · rintro ⟨rows,written,is,is',same⟩
    obtain rfl := Option.some.inj (made.symm.trans is)
    obtain rfl := Option.some.inj (made'.symm.trans is')
    rw [← costs_,← costs',same]
  · intro same
    exact ⟨s.rows,rows',made,made',by rw [costs_,costs',same]⟩

end

def unitsTaken (asset : String) (before : List NormalizedTaxTransaction) : ℚ := taken (history asset before)
def bought (asset : String) (before : List NormalizedTaxTransaction) : List (Lot ℚ) := acquired (history asset before)

/-- Of the lots bought before a disposal the first units, as many as it is of, cost as much as those behind the
    units that earlier disposals took. -/
def SamePrices (transactions : List TaxExportTransaction) : Prop :=
  ∀ before t later, normalizeTransactions transactions = before ++ t :: later → isDisposalType t.type = true →
    costOf |t.quantity| (rest (unitsTaken (trimmed t.asset) before) (bought (trimmed t.asset) before)) =
      costOf |t.quantity| (bought (trimmed t.asset) before)

theorem samePrices_iff (tidy : Tidy transactions) : Agree transactions ↔ SamePrices transactions := by
  rw [agree_iff_costs tidy,perDisposal_eq_iff]
  refine forall_congr' fun before => forall_congr' fun t => forall_congr' fun later => ?_
  refine imp_congr_right fun parts => imp_congr_right fun _ => ?_
  have earlier : ∀ t' ∈ before, t'.quantity ≠ 0 := fun t' listed =>
    nonzero_normalized tidy.nonzero t' (by rw [parts]; exact List.mem_append_left _ listed)
  rw [List.nil_append,carried,rebuilt,held_eq (proper_history earlier)]
  exact Iff.rfl

end Rebuilt

/-- The reports agree exactly where units cost as much as those that were taken before. -/
theorem reports_agree_iff (transactions : List TaxExportTransaction) (tidy : Tidy transactions) :
    Agree transactions ↔ SamePrices transactions := samePrices_iff tidy

def oneSale : List TaxExportTransaction :=
  [⟨some 1,"XLM",.finite 2,.finite 3,.buy,none,none⟩,⟨some 2,"XLM",.finite 1,.finite 2,.sell,none,none⟩]

/-- A first disposal finds the same lots in both. -/
theorem reports_agree_oneSale : Agree oneSale := by
  refine (reports_agree_iff oneSale ⟨by decide,by decide,by decide,by decide⟩).mpr ?_
  have sorted : normalizeTransactions oneSale = oneSale.map normalize := List.mergeSort_of_pairwise (by decide)
  intro before t later parts sold
  rw [sorted] at parts
  match before with
  | [] =>
    obtain ⟨rfl,-⟩ := List.cons.inj parts
    cases sold
  | [first] =>
    obtain ⟨rfl,second⟩ := List.cons.inj parts
    obtain ⟨rfl,-⟩ := List.cons.inj second
    decide +kernel
  | first :: second :: more =>
    have lengths := congrArg List.length parts
    simp [oneSale] at lengths

/-- Two lots of different prices, sold one after the other. -/
def twoSales : List TaxExportTransaction :=
  [⟨some 1,"XLM",.finite 1,.finite 1,.buy,none,none⟩,⟨some 2,"XLM",.finite 1,.finite 3,.buy,none,none⟩,
    ⟨some 3,"XLM",.finite 1,.finite 5,.sell,none,none⟩,⟨some 4,"XLM",.finite 1,.finite 5,.sell,none,none⟩]

/-- The second sale is of the first lot again. -/
theorem twoSales_differ : Tidy twoSales ∧ ¬ Agree twoSales := by
  have tidy : Tidy twoSales := ⟨by decide,by decide,by decide,by decide⟩
  have sorted : normalizeTransactions twoSales = twoSales.map normalize := List.mergeSort_of_pairwise (by decide)
  refine ⟨tidy,fun agree => ?_⟩
  have same := (samePrices_iff tidy).mp agree ((twoSales.map normalize).take 3) (normalize ⟨some 4,"XLM",.finite 1,.finite 5,.sell,none,none⟩)
    [] (by rw [sorted]; rfl) rfl
  exact absurd same (by decide +kernel)

end StellarAlerts.TaxReports
