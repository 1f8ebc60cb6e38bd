import Mathlib.Data.List.Sort
import StellarAlerts.FifoLots
import StellarAlerts.IntegerText
import StellarAlerts.Numbers
import StellarAlerts.OrderedMaps

/-!
Reports of gains for tax software. The loop that matches a disposal with lots ends after
at most one turn more than there are lots (`matchLots_turns`) and takes what `FifoLots`
takes (`matchLots_eq`).
-/
namespace StellarAlerts.TaxExporter
open FifoLots
open IntegerText (trim)
open Numbers OrderedMaps

inductive TaxTransactionType where
  | receive | buy | sell | send
deriving DecidableEq

/-- The date is the time of a `Date`, none where that is invalid; quantity and value are what `Number` makes of them. -/
structure TaxExportTransaction where
  date : Option Int
  asset : String
  quantity : Number
  usdValue : Number
  type : TaxTransactionType
  txHash : Option String
  fromAddress : Option String

structure NormalizedTaxTransaction where
  date : Option Int
  asset : String
  quantity : ℚ
  usdValue : ℚ
  type : TaxTransactionType
  txHash : Option String
  fromAddress : Option String
deriving DecidableEq

structure TaxLot where
  asset : String
  quantity : ℚ
  costBasis : ℚ
  acquiredAt : Option Int
deriving DecidableEq

def normalizeQuantity : Number → ℚ
  | .finite numeric => numeric
  | _ => 0

def isDisposalType (type : TaxTransactionType) : Bool := type = .sell || type = .send

def normalize (transaction : TaxExportTransaction) : NormalizedTaxTransaction where
  date := transaction.date
  asset := transaction.asset
  quantity := normalizeQuantity transaction.quantity
  usdValue := normalizeQuantity transaction.usdValue
  type := transaction.type
  txHash := transaction.txHash
  fromAddress := transaction.fromAddress

/-- The difference of the times is not positive; with an invalid date it is NaN, which sorts as equal. -/
def notAfter (a b : NormalizedTaxTransaction) : Bool :=
  match a.date, b.date with
  | some time, some time' => time ≤ time'
  | _, _ => true

def normalizeTransactions (transactions : List TaxExportTransaction) : List NormalizedTaxTransaction :=
  ((transactions.map normalize).filter fun t => t.asset ≠ "").mergeSort notAfter

structure Matching where
  remaining : ℚ
  costBasis : ℚ
  lots : List TaxLot

/-- The condition of the loop. -/
def Matching.goesOn (m : Matching) : Prop := 0 < m.remaining ∧ 0 < m.lots.length

instance (m : Matching) : Decidable m.goesOn := inferInstanceAs (Decidable (_ ∧ _))

/-- The body of the loop. -/
def Matching.turn (m : Matching) : Matching :=
  match m.lots with
  | [] => m
  | lot :: later =>
    let matched := min lot.quantity m.remaining
    let unitCost := lot.costBasis / lot.quantity
    let left := { lot with quantity := lot.quantity - matched, costBasis := lot.costBasis - matched * unitCost }
    ⟨m.remaining - matched,m.costBasis + matched * unitCost,if left.quantity ≤ 0 then later else left :: later⟩

/-- The lots, and one more while units remain. -/
def Matching.measure (m : Matching) : Nat := m.lots.length + if 0 < m.remaining then 1 else 0

theorem turn_measure {m : Matching} (goesOn : m.goesOn) : m.turn.measure < m.measure := by
  obtain ⟨remaining,costBasis,lots⟩ := m
  obtain ⟨some_,any⟩ := goesOn
  have units : 0 < remaining := some_
  cases lots with
  | nil => exact absurd any (lt_irrefl 0)
  | cons lot later =>
    simp only [Matching.turn,Matching.measure,if_pos units,List.length_cons]
    rcases le_total lot.quantity remaining with all | part
    · rw [min_eq_left all,if_pos (le_of_eq (sub_self _))]
      split <;> omega
    · have none : ¬ 0 < remaining - min lot.quantity remaining := by
        rw [min_eq_right part,sub_self]
        exact lt_irrefl 0
      rw [if_neg none]
      split
      · omega
      · rw [List.length_cons]
        omega

def matchLots (m : Matching) : Matching := if m.goesOn then matchLots m.turn else m
termination_by m.measure
decreasing_by exact turn_measure ‹_›

theorem matchLots_turns (m : Matching) :
    ∃ turns ≤ m.lots.length + 1, matchLots m = Matching.turn^[turns] m ∧ ¬ (Matching.turn^[turns] m).goesOn := by
  have bounded : ∃ turns ≤ m.measure, matchLots m = Matching.turn^[turns] m ∧ ¬ (Matching.turn^[turns] m).goesOn := by
    fun_induction matchLots m with
    | case1 m goesOn ih =>
      obtain ⟨turns,few,same,ended⟩ := ih
      have lower := turn_measure goesOn
      exact ⟨turns + 1,by omega,same,ended⟩
    | case2 m ended => exact ⟨0,Nat.zero_le _,rfl,ended⟩
  obtain ⟨turns,few,rest⟩ := bounded
  refine ⟨turns,few.trans ?_,rest⟩
  rw [Matching.measure]
  split <;> omega

/-- A lot by its units and cost. -/
def TaxLot.lot (l : TaxLot) : Lot ℚ := ⟨l.quantity,l.costBasis⟩

theorem matchLots_eq (m : Matching) (positive : Positive (m.lots.map TaxLot.lot)) :
    (matchLots m).costBasis = m.costBasis + costOf m.remaining (m.lots.map TaxLot.lot) ∧
    (matchLots m).lots.map TaxLot.lot = rest m.remaining (m.lots.map TaxLot.lot) := by
  fun_induction matchLots m with
  | case1 m goesOn ih =>
    obtain ⟨remaining,costBasis,lots⟩ := m
    have units : ¬ remaining ≤ 0 := not_le.mpr goesOn.1
    cases lots with
    | nil => exact absurd goesOn.2 (lt_irrefl 0)
    | cons l later =>
      have others : Positive (later.map TaxLot.lot) := fun lot listed => positive lot (List.mem_cons_of_mem _ listed)
      have first : 0 < l.quantity := positive l.lot List.mem_cons_self
      rcases le_or_gt l.quantity remaining with all | part
      · have turned : (Matching.mk remaining costBasis (l :: later)).turn =
            ⟨remaining - l.quantity,costBasis + l.quantity * (l.costBasis / l.quantity),later⟩ := by
          simp [Matching.turn,min_eq_left all]
        rw [turned] at ih ⊢
        obtain ⟨cost_,left⟩ := ih others
        have notPart : ¬ remaining < l.lot.quantity := not_lt.mpr all
        have whole : l.quantity * (l.costBasis / l.quantity) = l.costBasis := mul_div_cancel₀ _ first.ne'
        simp only [List.map_cons,costOf,rest,if_neg units,if_neg notPart]
        rw [cost_,left,whole]
        exact ⟨by simp only [TaxLot.lot,add_assoc],rfl⟩
      · have more : ¬ l.quantity - remaining ≤ 0 := not_le.mpr (sub_pos.mpr part)
        have turned : (Matching.mk remaining costBasis (l :: later)).turn =
            ⟨0,costBasis + remaining * (l.costBasis / l.quantity),
              { l with quantity := l.quantity - remaining, costBasis := l.costBasis - remaining * (l.costBasis / l.quantity) } ::
                later⟩ := by
          simp [Matching.turn,min_eq_right part.le,part]
        rw [turned] at ih ⊢
        have part' : remaining < l.lot.quantity := part
        obtain ⟨cost_,left⟩ := ih fun lot listed => by
          rcases List.mem_cons.mp listed with rfl | listed
          · exact sub_pos.mpr part
          · exact others lot listed
        simp only [List.map_cons,costOf,rest,if_neg units,if_pos part']
        rw [cost_,left,costOf_nonpos le_rfl,rest_nonpos le_rfl,add_zero]
        exact ⟨rfl,rfl⟩
  | case2 m ended =>
    obtain ⟨remaining,costBasis,lots⟩ := m
    by_cases units : remaining ≤ 0
    · simp only [costOf_nonpos units,rest_nonpos units,add_zero,and_self]
    · cases lots with
      | nil => simp [costOf,rest]
      | cons l later => exact absurd ⟨not_le.mp units,Nat.succ_pos _⟩ ended

/-- The day is written from the date. -/
structure CoinTrackerRow where
  date : Int
  asset : String
  quantity : ℚ
  usdValue : ℚ
  costBasis : ℚ
  realizedGainLoss : ℚ
  type : TaxTransactionType
  transactionHash : String
deriving DecidableEq

structure Report where
  assetLots : OrderedMap String (List TaxLot)
  rows : List CoinTrackerRow

def Report.empty : Report := ⟨.empty,[]⟩
def Report.lotsOf (s : Report) (asset : String) : List TaxLot := (s.assetLots.get asset).getD []
def trimmed (asset : String) : String := String.ofList (trim asset.toList)
def NormalizedTaxTransaction.reference (t : NormalizedTaxTransaction) : String := (t.txHash.or t.fromAddress).getD ""

def openLot (s : Report) (t : NormalizedTaxTransaction) (date : Int) : Report where
  assetLots := s.assetLots.set (trimmed t.asset)
    (s.lotsOf (trimmed t.asset) ++ [⟨trimmed t.asset,|t.quantity|,t.usdValue,t.date⟩])
  rows := s.rows ++ [⟨date,trimmed t.asset,|t.quantity|,t.usdValue,t.usdValue,0,t.type,t.reference⟩]

def useLots (s : Report) (t : NormalizedTaxTransaction) (date : Int) : Report :=
  let soldQuantity := |t.quantity|
  let matched := matchLots ⟨soldQuantity,0,s.lotsOf (trimmed t.asset)⟩
  { assetLots := s.assetLots.set (trimmed t.asset) matched.lots
    rows := s.rows ++ [⟨date,trimmed t.asset,-soldQuantity,t.usdValue,matched.costBasis,t.usdValue - matched.costBasis,t.type,
      t.reference⟩] }

/-- One transaction; none where an invalid date has no text. -/
def process (s : Report) (t : NormalizedTaxTransaction) : Option Report :=
  t.date.map fun date => if isDisposalType t.type then useLots s t date else openLot s t date

def processAll (transactions : List NormalizedTaxTransaction) : Option Report := transactions.foldlM process .empty
def buildCoinTrackerRows (transactions : List TaxExportTransaction) : Option (List CoinTrackerRow) :=
  (processAll (normalizeTransactions transactions)).map Report.rows

end StellarAlerts.TaxExporter
