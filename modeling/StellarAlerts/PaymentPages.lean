import StellarAlerts.CursorCodec
import StellarAlerts.CursorPages
import StellarAlerts.UniqueTables

/-!
The payments of a user, page by page. The walk yields the payments if and only if, at
the end of each page, what was received earlier is what the requested order puts behind
(`payment_pages_iff`).
-/
namespace StellarAlerts.PaymentPages
open CursorCodec CursorPages
open DateTexts (Date)
open OrderedMaps RowQueries UniqueTables

inductive PaymentSortField where
  | receivedAt
  | amount
  | asset
deriving DecidableEq, Repr

inductive SortOrder where
  | asc
  | desc
deriving DecidableEq, Repr

/-- The columns that the list reads. -/
structure Payment where
  id : String
  walletId : String
  amount : ℚ
  asset : String
  memo : Option String
  receivedAt : Date
deriving DecidableEq

structure Wallet where
  id : String
  userId : String
deriving DecidableEq

abbrev Payments := Table Payment fun a b => a.id == b.id
abbrev Wallets := Table Wallet fun a b => a.id == b.id

/-- The filters apart from the cursor. -/
structure GetPaymentsFilters where
  walletId : Option String
  asset : Option String
  memo : Option String
  dateFrom : Option Date
  dateTo : Option Date
  sortBy : Option PaymentSortField
  sortOrder : Option SortOrder

def position (row : Payment) : Position := ⟨row.receivedAt,row.id⟩
def encodePaymentCursor (row : Payment) : String := encodePosition "receivedAt" (position row)
def decodePaymentCursor (r : Runtime) (cursor : String) : Except CursorError Position := decodePosition r "receivedAt" cursor

section Order

/-- What a column is compared by. -/
def PaymentSortField.Value : PaymentSortField → Type
  | .receivedAt => ℤ
  | .amount => ℚ
  | .asset => List ℕ

instance (sortBy : PaymentSortField) : LinearOrder sortBy.Value :=
  match sortBy with
  | .receivedAt => inferInstanceAs (LinearOrder ℤ)
  | .amount => inferInstanceAs (LinearOrder ℚ)
  | .asset => inferInstanceAs (LinearOrder (List ℕ))

def PaymentSortField.value (db : Database) (row : Payment) : (sortBy : PaymentSortField) → sortBy.Value
  | .receivedAt => row.receivedAt.ms
  | .amount => row.amount
  | .asset => db.collationKey row.asset

def SortOrder.Directed (K : Type) : SortOrder → Type
  | .asc => K
  | .desc => Kᵒᵈ

instance {K : Type} [LinearOrder K] (sortOrder : SortOrder) : LinearOrder (sortOrder.Directed K) :=
  match sortOrder with
  | .asc => inferInstanceAs (LinearOrder K)
  | .desc => inferInstanceAs (LinearOrder Kᵒᵈ)

def SortOrder.directed {K : Type} (k : K) : (sortOrder : SortOrder) → sortOrder.Directed K
  | .asc => k
  | .desc => OrderDual.toDual k

/-- `orderBy: [{ [sortBy]: sortOrder },{ id: sortOrder }]`. -/
def place (db : Database) (sortBy : PaymentSortField) (sortOrder : SortOrder) (row : Payment) :
    sortOrder.Directed (sortBy.Value ×ₗ List ℕ) :=
  sortOrder.directed (toLex (sortBy.value db row,db.collationKey row.id))

variable {sortOrder : SortOrder}

theorem directed_inj {K : Type} {k k' : K} (same : sortOrder.directed k = sortOrder.directed k') : k = k' := by
  cases sortOrder with
  | asc => exact same
  | desc => exact OrderDual.toDual.injective same

theorem place_inj {db : Database} {sortBy : PaymentSortField} {a b : Payment}
    (same : place db sortBy sortOrder a = place db sortBy sortOrder b) : a.id = b.id := by
  have pairs := toLex.injective (directed_inj same)
  exact db.distinct (congrArg Prod.snd pairs)

end Order

section List
variable (db : Database) (r : Runtime) (wallets : Wallets)

def receivedRange (dateFrom dateTo : Option Date) : Option (Payment → Bool) :=
  if dateFrom.isSome || dateTo.isSome then
    some fun row => dateFrom.all (fun date => date.ms ≤ row.receivedAt.ms) && dateTo.all fun date => row.receivedAt.ms ≤ date.ms
  else none

def whereOf (userId : String) (filters : GetPaymentsFilters) : Where Payment :=
  let w := assign OrderedMap.empty "walletId" ((given filters.walletId).map fun walletId row => decide (row.walletId = walletId))
  let w := w.set "wallet" fun row => wallets.rows.any fun wallet => wallet.id = row.walletId && wallet.userId = userId
  let w := assign w "asset" ((given filters.asset).map fun asset row => decide (row.asset = asset))
  let w := assign w "memo" ((given filters.memo).map fun memo row => row.memo.any fun text => db.contains text memo)
  assign w "receivedAt" (receivedRange filters.dateFrom filters.dateTo)

def getPayments (userId : String) (limit : Nat) (filters : GetPaymentsFilters) (cursor : Option String) (payments : Payments) :
    Except CursorError (Page Payment String) := do
  let w := whereOf db wallets userId filters
  let w ← match given cursor with
    | some cursor => do
      let c ← decodePaymentCursor r cursor
      pure (mergeCursor w "receivedAt" fun row => olderThan db c (position row))
    | none => pure w
  let sortBy := filters.sortBy.getD .receivedAt
  let sortOrder := filters.sortOrder.getD .desc
  let rows := findMany (place db sortBy sortOrder) w (limit + 1) payments.rows
  pure (pageOf encodePaymentCursor rows limit)

end List

section Requests
variable {db : Database} {r : Runtime} {wallets : Wallets} {userId : String} {filters : GetPaymentsFilters}

theorem whereOf_free {k : String} (other : k ∉ ["walletId","wallet","asset","memo","receivedAt"]) :
    (whereOf db wallets userId filters).get k = none := by
  simp only [List.mem_cons,List.not_mem_nil,or_false,not_or] at other
  simp [whereOf,get_assign,get_set,other]

def requested (db : Database) (wallets : Wallets) (userId : String) (filters : GetPaymentsFilters) (payments : Payments) :
    List Payment :=
  (ordered (place db (filters.sortBy.getD .receivedAt) (filters.sortOrder.getD .desc)) payments.rows).filter
    (selects (whereOf db wallets userId filters))

theorem payments_apart (sortBy : PaymentSortField) (sortOrder : SortOrder) (payments : Payments) :
    Apart (place db sortBy sortOrder) payments.rows := apart_of_unique payments.unique fun _ _ => place_inj

theorem requested_sorted (payments : Payments) :
    (requested db wallets userId filters payments).Pairwise fun a b =>
      place db (filters.sortBy.getD .receivedAt) (filters.sortOrder.getD .desc) a <
        place db (filters.sortBy.getD .receivedAt) (filters.sortOrder.getD .desc) b :=
  (ordered_apart (payments_apart _ _ payments)).filter _

theorem requested_nodup (payments : Payments) : (requested db wallets userId filters payments).Nodup :=
  (requested_sorted payments).imp fun before same => before.ne (congrArg _ same)

theorem getPayments_first (limit : Nat) (payments : Payments) :
    getPayments db r wallets userId limit filters none payments =
      .ok (pageOf encodePaymentCursor ((requested db wallets userId filters payments).take (limit + 1)) limit) := by
  rw [requested,← ordered_filter (payments_apart _ _ payments)]
  rfl

theorem getPayments_next (limit : Nat) (payments : Payments) (row : Payment) :
    getPayments db r wallets userId limit filters (some (encodePaymentCursor row)) payments =
      .ok (pageOf encodePaymentCursor (((requested db wallets userId filters payments).filter fun p =>
        olderThan db (position row) (position p)).take (limit + 1)) limit) := by
  have isGiven : given (some (encodePaymentCursor row)) = some (encodePaymentCursor row) :=
    @given_encode "receivedAt" (by decide) (position row)
  have decoded : decodePaymentCursor r (encodePaymentCursor row) = .ok (position row) :=
    decodePosition_encode (by decide) (position row)
  have conditions : selects (mergeCursor (whereOf db wallets userId filters) "receivedAt" fun p =>
      olderThan db (position row) (position p)) =
      fun p => olderThan db (position row) (position p) && selects (whereOf db wallets userId filters) p := by
    funext p
    rw [selects_merge (by decide) (whereOf_free (by decide)) (whereOf_free (by decide)),Bool.and_comm]
  rw [requested,List.filter_filter,← conditions,← ordered_filter (payments_apart _ _ payments)]
  simp only [getPayments,isGiven,decoded]
  rfl

def request (db : Database) (r : Runtime) (wallets : Wallets) (userId : String) (limit : PageLimit) (filters : GetPaymentsFilters)
    (payments : Payments) (_ : Nat) (cursor : Option String) : Except CursorError (Page Payment String) :=
  getPayments db r wallets userId limit filters cursor payments

theorem follows_iff_cuts (limit : PageLimit) (payments : Payments) :
    Follows (request db r wallets userId limit filters payments) 0 none (requested db wallets userId filters payments) ↔
      ∀ before row behind, requested db wallets userId filters payments = before ++ row :: behind →
        limit.val ∣ before.length + 1 → behind ≠ [] →
          (requested db wallets userId filters payments).filter (fun p => olderThan db (position row) (position p)) = behind :=
  @follows_rest_iff _ _ _ encodePaymentCursor limit.val (request db r wallets userId limit filters payments)
    (requested db wallets userId filters payments) (fun row p => olderThan db (position row) (position p)) limit.property
    (fun _ _ _ => olderThan_trans) (fun _ row _ => getPayments_next limit payments row) (requested_nodup payments)
    (fun p => olderThan_irrefl db (position p)) 0 none [] _ (List.nil_append _).symm (getPayments_first limit payments)

theorem ascending_pages_iff (limit : PageLimit) (payments : Payments) (byTime : filters.sortBy.getD .receivedAt = .receivedAt)
    (ascends : filters.sortOrder.getD .desc = .asc) :
    Follows (request db r wallets userId limit filters payments) 0 none (requested db wallets userId filters payments) ↔
      (requested db wallets userId filters payments).length ≤ limit.val := by
  have sorted : (requested db wallets userId filters payments).Pairwise fun a b =>
      newestFirst db (position b) < newestFirst db (position a) := by
    have inOrder := @requested_sorted db wallets userId filters payments
    rw [byTime,ascends] at inOrder
    exact inOrder.imp fun before => OrderDual.toDual_lt_toDual.mpr before
  rw [follows_iff_cuts]
  constructor
  · intro cuts
    by_contra long
    rcases @pageOf_cases _ _ encodePaymentCursor _ limit.property (requested db wallets userId filters payments) with
      ⟨fits,_⟩ | ⟨first,last,behind,split,count,more,_⟩
    · exact long fits
    · obtain ⟨next,there⟩ := List.exists_mem_of_ne_nil behind more
      have served := there
      rw [← cuts first last behind split (count ▸ Nat.dvd_refl _) more,List.mem_filter,olderThan_eq,decide_eq_true_eq] at served
      rw [split] at sorted
      have newer := (List.pairwise_cons.mp (List.pairwise_append.mp sorted).2.1).1 next there
      exact newer.asymm served.2
  · intro fits before row behind split multiple more
    have some_ := List.length_pos_iff.mpr more
    have page := Nat.le_of_dvd (Nat.succ_pos _) multiple
    rw [split,List.length_append,List.length_cons] at fits
    omega

/-- Following the cursors yields the filtered payments in the requested order if and only if, wherever a page ends and more follows, the
    payments behind are those that were received before the last of the page. -/
theorem payment_pages_iff (db : Database) (r : Runtime) (wallets : Wallets) (userId : String) (limit : PageLimit)
    (filters : GetPaymentsFilters) (payments : Payments) :
    Follows (request db r wallets userId limit filters payments) 0 none (requested db wallets userId filters payments) ↔
      ∀ before row behind, requested db wallets userId filters payments = before ++ row :: behind →
        limit.val ∣ before.length + 1 → behind ≠ [] →
          (∀ p ∈ before, olderThan db (position row) (position p) = false) ∧
            ∀ p ∈ behind, olderThan db (position row) (position p) = true := by
  rw [follows_iff_cuts]
  refine forall_congr' fun before => forall_congr' fun row => forall_congr' fun behind => forall_congr' fun split =>
    forall_congr' fun _ => forall_congr' fun _ => ?_
  exact @filter_eq_iff _ _ (fun row p : Payment => olderThan db (position row) (position p)) (requested_nodup payments)
    (fun p => olderThan_irrefl db (position p)) before behind row split

end Requests

def payment (id : String) (receivedAt : Date) : Payment := ⟨id,"w",10,"XLM",none,receivedAt⟩
theorem first_inRange : (-8640000000000000 : Int) ≤ 1 ∧ (1 : Int) ≤ 8640000000000000 := by decide
theorem second_inRange : (-8640000000000000 : Int) ≤ 2 ∧ (2 : Int) ≤ 8640000000000000 := by decide
def earlierAndLater : Payments := ⟨[payment "p" ⟨1,first_inRange⟩,payment "q" ⟨2,second_inRange⟩],by decide⟩
def wallet : Wallets := ⟨[⟨"w","user"⟩],by decide⟩
def oldestFirst : GetPaymentsFilters := ⟨none,none,none,none,none,some .receivedAt,some .asc⟩

/-- Oldest first, a payment at a time, the second is never served. -/
theorem second_payment_lost :
    ¬Follows (request byCodePoint bareRuntime wallet "user" ⟨1,Nat.one_pos⟩ oldestFirst earlierAndLater) 0 none
      (requested byCodePoint wallet "user" oldestFirst earlierAndLater) := by
  have both : (requested byCodePoint wallet "user" oldestFirst earlierAndLater).length = 2 := by decide
  rw [ascending_pages_iff _ _ rfl rfl,both]
  decide

end StellarAlerts.PaymentPages
