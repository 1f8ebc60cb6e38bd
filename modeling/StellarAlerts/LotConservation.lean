import StellarAlerts.TaxExporter

/-!
What the report keeps of every asset, after any number of transactions. What was paid
for an asset is what its disposals cost and what its open lots still cost, and the open
lots are what is behind the units taken (`lots_conserved`).
-/
namespace StellarAlerts.LotConservation
open FifoLots Numbers OrderedMaps TaxExporter

section History
variable (asset : String)

def Own (t : NormalizedTaxTransaction) : Bool := trimmed t.asset = asset

def eventOf (t : NormalizedTaxTransaction) : Option (Event ℚ) :=
  if trimmed t.asset = asset then
    some (if isDisposalType t.type then .dispose |t.quantity| else .acquire ⟨|t.quantity|,t.usdValue⟩)
  else none

def history (done : List NormalizedTaxTransaction) : List (Event ℚ) := done.filterMap (eventOf asset)
def reportedCosts (rows : List CoinTrackerRow) : List ℚ :=
  (rows.filter fun row => row.asset = asset && isDisposalType row.type).map CoinTrackerRow.costBasis

variable {asset}

theorem proper_history {done : List NormalizedTaxTransaction} (nonzero : ∀ t ∈ done, t.quantity ≠ 0) :
    ∀ e ∈ history asset done, e.Proper := by
  intro e member
  obtain ⟨t,listed,is⟩ := List.mem_filterMap.mp member
  rw [eventOf] at is
  split at is
  · obtain rfl := Option.some.inj is
    split
    · exact abs_nonneg t.quantity
    · exact abs_pos.mpr (nonzero t listed)
  · cases is

@[simp] theorem history_concat (done : List NormalizedTaxTransaction) (t : NormalizedTaxTransaction) :
    history asset (done ++ [t]) = history asset done ++ (eventOf asset t).toList := by
  rw [history,List.filterMap_append,← history]
  cases is : eventOf asset t <;> simp [is]

theorem history_cons (t : NormalizedTaxTransaction) (later : List NormalizedTaxTransaction) :
    history asset (t :: later) = (eventOf asset t).toList ++ history asset later := by
  rw [history,List.filterMap_cons,← history]
  cases eventOf asset t <;> rfl

end History

section Process
variable {s s' : Report} {t : NormalizedTaxTransaction} {asset : String}

theorem process_cases (processed : process s t = some s') : ∃ date, t.date = some date ∧
    (isDisposalType t.type = false ∧ s' = openLot s t date ∨ isDisposalType t.type = true ∧ s' = useLots s t date) := by
  obtain ⟨date,dated,is⟩ := Option.map_eq_some_iff.mp processed
  refine ⟨date,dated,?_⟩
  cases sold : isDisposalType t.type with
  | false => exact .inl ⟨rfl,by rw [← is,if_neg (by simp [sold])]⟩
  | true => exact .inr ⟨rfl,by rw [← is,if_pos sold]⟩

@[simp] theorem lotsOf_openLot (date : Int) : (openLot s t date).lotsOf asset =
    if trimmed t.asset = asset then s.lotsOf asset ++ [⟨asset,|t.quantity|,t.usdValue,t.date⟩] else s.lotsOf asset := by
  by_cases own : trimmed t.asset = asset
  · subst own
    simp [openLot,Report.lotsOf,get_set]
  · have other : ¬ asset = trimmed t.asset := fun same => own same.symm
    simp [openLot,Report.lotsOf,get_set,own,other]

@[simp] theorem lotsOf_useLots (date : Int) : (useLots s t date).lotsOf asset =
    if trimmed t.asset = asset then (matchLots ⟨|t.quantity|,0,s.lotsOf asset⟩).lots else s.lotsOf asset := by
  by_cases own : trimmed t.asset = asset
  · subst own
    simp [useLots,Report.lotsOf,get_set]
  · have other : ¬ asset = trimmed t.asset := fun same => own same.symm
    simp [useLots,Report.lotsOf,get_set,own,other]

theorem lots_process (processed : process s t = some s') (positive : Positive ((s.lotsOf asset).map TaxLot.lot)) :
    (s'.lotsOf asset).map TaxLot.lot = (eventOf asset t).toList.foldl Event.apply ((s.lotsOf asset).map TaxLot.lot) := by
  obtain ⟨date,-,⟨bought,rfl⟩ | ⟨sold,rfl⟩⟩ := process_cases processed
  · by_cases own : trimmed t.asset = asset
    · simp [own,eventOf,bought,Event.apply,TaxLot.lot]
    · simp [own,eventOf]
  · by_cases own : trimmed t.asset = asset
    · simp [own,eventOf,sold,Event.apply,(matchLots_eq ⟨|t.quantity|,0,s.lotsOf asset⟩ positive).2]
    · simp [own,eventOf]

theorem costs_process (processed : process s t = some s') (positive : Positive ((s.lotsOf asset).map TaxLot.lot)) :
    reportedCosts asset s'.rows =
      reportedCosts asset s.rows ++ costs ((s.lotsOf asset).map TaxLot.lot) (eventOf asset t).toList := by
  obtain ⟨date,-,⟨bought,rfl⟩ | ⟨sold,rfl⟩⟩ := process_cases processed
  · by_cases own : trimmed t.asset = asset
    · simp [reportedCosts,openLot,own,eventOf,bought,costs]
    · simp [reportedCosts,openLot,own,eventOf,costs]
  · by_cases own : trimmed t.asset = asset
    · simp [reportedCosts,useLots,own,eventOf,sold,costs,(matchLots_eq ⟨|t.quantity|,0,s.lotsOf asset⟩ positive).1]
    · simp [reportedCosts,useLots,own,eventOf,costs]

end Process

section Run
variable {done : List NormalizedTaxTransaction} {s s' : Report} {asset : String}

theorem processAll_concat (t : NormalizedTaxTransaction) : processAll (done ++ [t]) = (processAll done).bind (process · t) := by
  rw [processAll,List.foldlM_append,← processAll]
  cases processAll done <;> simp

/-- Only an invalid date stops the report. -/
theorem processAll_isSome : (processAll done).isSome = true ↔ ∀ t ∈ done, t.date.isSome = true := by
  induction done using List.reverseRecOn with
  | nil => simp [processAll]
  | append_singleton done t ih =>
    rw [processAll_concat,List.forall_mem_append,← ih]
    cases ran : processAll done with
    | none => simp
    | some s => simp [process]

theorem processAll_follows (nonzero : ∀ t ∈ done, t.quantity ≠ 0) (ran : processAll done = some s) (asset : String) :
    (s.lotsOf asset).map TaxLot.lot = held (history asset done) ∧ reportedCosts asset s.rows = costs [] (history asset done) := by
  induction done using List.reverseRecOn generalizing s with
  | nil =>
    obtain rfl : Report.empty = s := Option.some.inj ran
    exact ⟨rfl,rfl⟩
  | append_singleton done t ih =>
    rw [processAll_concat] at ran
    obtain ⟨before,ranBefore,processed⟩ := Option.bind_eq_some_iff.mp ran
    have earlier : ∀ t ∈ done, t.quantity ≠ 0 := fun t listed => nonzero t (List.mem_append_left _ listed)
    obtain ⟨lots,reported⟩ := ih earlier ranBefore
    have positive : Positive ((before.lotsOf asset).map TaxLot.lot) := by
      rw [lots]
      exact positive_held (proper_history earlier)
    rw [lots_process processed positive,costs_process processed positive,lots,reported,history_concat]
    cases eventOf asset t with
    | none => simp [costs]
    | some e => simp [held,costs_concat]

theorem processAll_own (ran : processAll done = some s) : ∃ alone, processAll (done.filter (Own asset)) = some alone ∧
    alone.lotsOf asset = s.lotsOf asset ∧ alone.rows = s.rows.filter fun row => row.asset = asset := by
  induction done using List.reverseRecOn generalizing s with
  | nil =>
    obtain rfl : Report.empty = s := Option.some.inj ran
    exact ⟨_,rfl,rfl,rfl⟩
  | append_singleton done t ih =>
    rw [processAll_concat] at ran
    obtain ⟨before,ranBefore,processed⟩ := Option.bind_eq_some_iff.mp ran
    obtain ⟨alone,ranAlone,lots,rows⟩ := ih ranBefore
    obtain ⟨date,dated,what⟩ := process_cases processed
    rw [List.filter_append]
    by_cases own : trimmed t.asset = asset
    · have kept : [t].filter (Own asset) = [t] := by simp [Own,own]
      rw [kept,processAll_concat,ranAlone,Option.bind_some]
      rcases what with ⟨bought,rfl⟩ | ⟨sold,rfl⟩
      · refine ⟨openLot alone t date,by simp [process,dated,bought],by simp [lots],?_⟩
        simp [openLot,rows,own]
      · refine ⟨useLots alone t date,by simp [process,dated,sold],by simp [lots],?_⟩
        simp [useLots,rows,own,lots]
    · have dropped : [t].filter (Own asset) = [] := by simp [Own,own]
      rw [dropped,List.append_nil]
      rcases what with ⟨-,rfl⟩ | ⟨-,rfl⟩
      · exact ⟨alone,ranAlone,by simp [own,lots],by simp [openLot,own,rows]⟩
      · exact ⟨alone,ranAlone,by simp [own,lots],by simp [useLots,own,rows]⟩

end Run

/-- The units of an asset that are open: an acquisition adds to them, a disposal takes from them while there are any. -/
def openUnits (asset : String) (done : List NormalizedTaxTransaction) : ℚ :=
  done.foldl (fun units t =>
    if trimmed t.asset = asset then
      if isDisposalType t.type then max 0 (units - |t.quantity|) else units + |t.quantity|
    else units) 0

theorem openUnits_eq (asset : String) (done : List NormalizedTaxTransaction) : openUnits asset done = leftUnits (history asset done) := by
  induction done using List.reverseRecOn with
  | nil => rfl
  | append_singleton done t ih =>
    rw [openUnits,List.foldl_append,← openUnits,ih,history_concat,leftUnits,leftUnits,List.foldl_append]
    by_cases own : trimmed t.asset = asset
    · cases sold : isDisposalType t.type <;> simp [own,sold,eventOf,Event.leaves]
    · simp [own,eventOf]

structure Conserved (done : List NormalizedTaxTransaction) (s : Report) (asset : String) : Prop where
  cost : (reportedCosts asset s.rows).sum + ((s.lotsOf asset).map TaxLot.costBasis).sum =
    ((done.filter fun t => trimmed t.asset = asset && !isDisposalType t.type).map NormalizedTaxTransaction.usdValue).sum
  positive : ∀ lot ∈ s.lotsOf asset, 0 < lot.quantity
  units : ((s.lotsOf asset).map TaxLot.quantity).sum = openUnits asset done
  /-- The open lots are what is behind the units ever taken. -/
  fifo : (s.lotsOf asset).map TaxLot.lot = rest (taken (history asset done)) (acquired (history asset done))
  /-- The transactions of the asset alone do the same to it. -/
  alone : ∃ alone, processAll (done.filter (Own asset)) = some alone ∧ alone.lotsOf asset = s.lotsOf asset ∧
    alone.rows = s.rows.filter fun row => row.asset = asset

theorem cost_acquired (asset : String) (done : List NormalizedTaxTransaction) : FifoLots.cost (acquired (history asset done)) =
    ((done.filter fun t => trimmed t.asset = asset && !isDisposalType t.type).map NormalizedTaxTransaction.usdValue).sum := by
  induction done with
  | nil => rfl
  | cons t later ih =>
    rw [history_cons,acquired,List.filterMap_append,cost_append,← acquired,← acquired,ih,List.filter_cons]
    by_cases own : trimmed t.asset = asset
    · cases sold : isDisposalType t.type <;> simp [own,sold,eventOf,acquired]
    · simp [own,eventOf,acquired]

theorem conserved {done : List NormalizedTaxTransaction} {s : Report} (nonzero : ∀ t ∈ done, t.quantity ≠ 0)
    (ran : processAll done = some s) (asset : String) : Conserved done s asset := by
  obtain ⟨lots,reported⟩ := processAll_follows nonzero ran asset
  have proper := @proper_history asset done nonzero
  have costs_ : ((s.lotsOf asset).map TaxLot.costBasis).sum = FifoLots.cost ((s.lotsOf asset).map TaxLot.lot) := by
    rw [FifoLots.cost,List.map_map]
    rfl
  have units_ : ((s.lotsOf asset).map TaxLot.quantity).sum = FifoLots.units ((s.lotsOf asset).map TaxLot.lot) := by
    rw [FifoLots.units,List.map_map]
    rfl
  constructor
  · rw [costs_,lots,reported,costs_held,cost_acquired]
  · intro lot listed
    have positive := positive_held proper
    rw [← lots] at positive
    exact positive lot.lot (List.mem_map_of_mem listed)
  · rw [units_,lots,units_held proper,openUnits_eq]
  · rw [lots,held_eq proper]
  · exact processAll_own ran

def kept (transactions : List TaxExportTransaction) : List NormalizedTaxTransaction :=
  (transactions.map normalize).filter fun t => t.asset ≠ ""

variable {transactions : List TaxExportTransaction}

theorem nonzero_normalized (nonzero : ∀ t ∈ transactions, normalizeQuantity t.quantity ≠ 0) :
    ∀ t ∈ normalizeTransactions transactions, t.quantity ≠ 0 := by
  intro t listed
  have listed' := (List.mem_filter.mp (List.mem_mergeSort.mp listed)).1
  obtain ⟨raw,member,rfl⟩ := List.mem_map.mp listed'
  exact nonzero raw member

theorem ordered_normalized (valid : ∀ t ∈ kept transactions, t.date.isSome = true) :
    (normalizeTransactions transactions).Pairwise fun a b => ∃ time time', a.date = some time ∧ b.date = some time' ∧ time ≤ time' := by
  have total : normalizeTransactions transactions =
      (kept transactions).mergeSort fun a b => decide (a.date.getD 0 ≤ b.date.getD 0) := by
    have same := @List.map_mergeSort _ _ notAfter (fun a b => decide (a.date.getD 0 ≤ b.date.getD 0)) id (kept transactions)
      fun a listed b listed' => ?_
    · rwa [List.map_id,List.map_id] at same
    · obtain ⟨time,is⟩ := Option.isSome_iff_exists.mp (valid a listed)
      obtain ⟨time',is'⟩ := Option.isSome_iff_exists.mp (valid b listed')
      simp [notAfter,is,is']
  have sorted := @List.pairwise_mergeSort _ (fun a b : NormalizedTaxTransaction => decide (a.date.getD 0 ≤ b.date.getD 0))
    (fun a b c first second => by simpa using le_trans (by simpa using first) (by simpa using second))
    (fun a b => by simpa using le_total _ _) (kept transactions)
  rw [← total] at sorted
  refine sorted.imp_of_mem fun {a b} listed listed' before => ?_
  obtain ⟨time,is⟩ := Option.isSome_iff_exists.mp (valid a (List.mem_mergeSort.mp listed))
  obtain ⟨time',is'⟩ := Option.isSome_iff_exists.mp (valid b (List.mem_mergeSort.mp listed'))
  exact ⟨time,time',is,is',by simpa [is,is'] using before⟩

/-- The report of all transactions conserves what was paid, asset by asset, behind every number of them; they are taken
    in the order of their dates, none is left out but by an invalid date, and each disposal is matched. -/
theorem lots_conserved (transactions : List TaxExportTransaction)
    (nonzero : ∀ t ∈ transactions, normalizeQuantity t.quantity ≠ 0) :
    (normalizeTransactions transactions).Perm (kept transactions) ∧
    ((∀ t ∈ kept transactions, t.date.isSome = true) → (normalizeTransactions transactions).Pairwise fun a b =>
      ∃ time time', a.date = some time ∧ b.date = some time' ∧ time ≤ time') ∧
    ((buildCoinTrackerRows transactions).isSome = true ↔ ∀ t ∈ kept transactions, t.date.isSome = true) ∧
    (∀ count s, processAll ((normalizeTransactions transactions).take count) = some s →
      ∀ asset, Conserved ((normalizeTransactions transactions).take count) s asset) ∧
    ∀ m : Matching, ∃ turns ≤ m.lots.length + 1,
      matchLots m = Matching.turn^[turns] m ∧ ¬ (Matching.turn^[turns] m).goesOn := by
  have permuted : (normalizeTransactions transactions).Perm (kept transactions) := List.mergeSort_perm _ _
  refine ⟨permuted,ordered_normalized,?_,fun count s ran asset => ?_,matchLots_turns⟩
  · rw [buildCoinTrackerRows,Option.isSome_map,processAll_isSome]
    exact ⟨fun valid t listed => valid t (permuted.mem_iff.mpr listed),fun valid t listed => valid t (permuted.mem_iff.mp listed)⟩
  · exact conserved (fun t listed => nonzero_normalized nonzero t (List.mem_of_mem_take listed)) ran asset

/-- Two acquisitions, and a disposal that uses up one and a part of the other. -/
def boughtAndSold : List TaxExportTransaction :=
  [⟨some 3,"XLM",.finite 60,.finite 90,.sell,some "tx-sell",none⟩,⟨some 1,"XLM",.finite 40,.finite 40,.receive,some "tx-receive",none⟩,
    ⟨some 2,"XLM",.finite 50,.finite 100,.buy,none,none⟩]

theorem lots_conserved_boughtAndSold : (buildCoinTrackerRows boughtAndSold).isSome = true ∧
    ∀ s, processAll (normalizeTransactions boughtAndSold) = some s → Conserved (normalizeTransactions boughtAndSold) s "XLM" := by
  obtain ⟨-,-,made,conserved,-⟩ := lots_conserved boughtAndSold (by decide)
  refine ⟨made.mpr (by decide),fun s ran => ?_⟩
  have all : (normalizeTransactions boughtAndSold).take (normalizeTransactions boughtAndSold).length =
      normalizeTransactions boughtAndSold := List.take_length
  have whole := conserved (normalizeTransactions boughtAndSold).length s (by rw [all]; exact ran) "XLM"
  rwa [all] at whole

end StellarAlerts.LotConservation
