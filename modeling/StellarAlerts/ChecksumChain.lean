import Mathlib.Data.List.Infix
import StellarAlerts.Histories
import StellarAlerts.HexText
import StellarAlerts.Sha256
import StellarAlerts.UniqueTables
import Mathlib.Data.List.Sort

/-!
The checksum chain of payments. Whatever the interleaving, the committed rows in the
order of their sequence form one chain from the genesis hash that `verifyChain` accepts
(`chain_linear`).
-/
namespace StellarAlerts.ChecksumChain
open HexText (toHex toLowerCase)
open Histories
open Sha256 (sha256 utf8)
open UniqueTables

def sha256Hex (input : String) : String := toHex (sha256 (utf8 input))
def genesisText : String := "stellar-alerts:payment-checksum-chain:genesis"
def GENESIS_HASH : String := sha256Hex genesisText

/-- The amount and the time of receipt stand as the texts that `String` and `toISOString` make of them. -/
structure ChainablePayment where
  id : String
  txHash : String
  walletId : String
  fromAddress : String
  amount : String
  asset : String
  assetIssuer : Option String
  memo : Option String
  receivedAt : String
deriving DecidableEq, Repr

def computePayloadHash (payment : ChainablePayment) : String :=
  sha256Hex ("|".intercalate
    [payment.id,payment.walletId,payment.txHash,payment.fromAddress,payment.amount,payment.asset,
     payment.assetIssuer.getD "N/A",payment.memo.getD "N/A",payment.receivedAt])

def chainText (previousHash payloadHash : String) : String := previousHash ++ ":" ++ payloadHash
def computeChainHash (previousHash payloadHash : String) : String := sha256Hex (chainText previousHash payloadHash)
def MAX_APPEND_RETRIES : Nat := 5

/-- An error of the database client. -/
structure Failure where
  code : String
  message : String
deriving DecidableEq, Repr

def isSerializationFailure (err : Failure) : Bool :=
  err.code == "P2034" ||
    ["could not serialize access","deadlock detected"].any fun text =>
      decide (text.toList <:+: (toLowerCase err.message).toList)

def uniqueViolation : Failure := ⟨"P2002","Unique constraint failed on the fields: (`paymentId`)"⟩
def serializationFailure : Failure :=
  ⟨"P2034","Transaction failed due to a write conflict or a deadlock. Please retry your transaction"⟩

structure PaymentChecksum where
  id : String
  paymentId : String
  sequence : Nat
  payloadHash : String
  previousHash : String
  chainHash : String
  createdAt : Nat
deriving DecidableEq, Repr

def samePayment (a b : PaymentChecksum) : Bool := a.paymentId == b.paymentId

/-- The committed rows, in the order of their commits, and the next value of the autoincrement. -/
structure Database where
  paymentChecksum : Table PaymentChecksum samePayment
  nextSequence : Nat

/-- `findMany({ orderBy: { sequence: 'asc' } })`. -/
def inSequence (rows : List PaymentChecksum) : List PaymentChecksum :=
  rows.insertionSort fun a b => a.sequence ≤ b.sequence

/-- `findFirst({ orderBy: { sequence: 'desc' } })`. -/
def findTail (rows : List PaymentChecksum) : Option PaymentChecksum := (inSequence rows).getLast?

/-- Where a call of `appendPaymentChecksum` stands; the number counts its attempts. -/
inductive Phase where
  /-- before the first query of the transaction -/
  | attempt (n : Nat)
  /-- the tail was read; the transaction sees these rows -/
  | read (n : Nat) (snapshot : List PaymentChecksum)
  /-- the row is inserted, not committed -/
  | inserted (n : Nat) (snapshot : List PaymentChecksum) (row : PaymentChecksum)
  /-- a unique constraint failed; the row of the payment is looked up -/
  | looking (n : Nat) (err : Failure)
  | returned (chainHash : Option String)
  | thrown
deriving DecidableEq, Repr

/-- The end of the `catch` block. -/
def Phase.retry (attempt : Nat) (err : Failure) : Phase :=
  if isSerializationFailure err && attempt < MAX_APPEND_RETRIES then .attempt (attempt + 1) else .returned none

/-- The `catch` block of an attempt. -/
def Phase.caught (attempt : Nat) (err : Failure) : Phase :=
  if err.code == "P2002" then .looking attempt err else .retry attempt err

/-- The row that the transaction creates after it read the tail of its snapshot. -/
def newRow (payment : ChainablePayment) (snapshot : List PaymentChecksum) (sequence : Nat) (id : String) (now : Nat) :
    PaymentChecksum :=
  let payloadHash := computePayloadHash payment
  let previousHash := ((findTail snapshot).map PaymentChecksum.chainHash).getD GENESIS_HASH
  ⟨id,payment.id,sequence,payloadHash,previousHash,computeChainHash previousHash payloadHash,now⟩

/-- What happens next in one call. A commit may be carried out and its answer lost. -/
inductive Move where
  | findFirst
  | create (id : String) (now : Nat)
  | commit (lost : Option Failure)
  | findUnique
  | fail (err : Failure)
deriving DecidableEq, Repr

/-- One move of a call. A sequence value is taken at the insertion and stays taken. Every append writes what the tail read of every
    other one depends on, so a serializable transaction commits only while the rows are those it saw. -/
def advance (db : Database) (payment : ChainablePayment) : Phase → Move → Database × Phase
  | .attempt n, .findFirst => (db,.read n db.paymentChecksum.rows)
  | .read n snapshot, .create id now =>
    let row := newRow payment snapshot db.nextSequence id now
    let taken := { db with nextSequence := db.nextSequence + 1 }
    if db.paymentChecksum.holds row then (taken,.caught n uniqueViolation) else (taken,.inserted n snapshot row)
  | .inserted n snapshot row, .commit lost =>
    if db.paymentChecksum.rows = snapshot then
      match db.paymentChecksum.insert row with
      | some table =>
        ({ db with paymentChecksum := table },
          match lost with
          | none => .returned (some row.chainHash)
          | some err => .caught n err)
      | none => (db,.caught n uniqueViolation)
    else (db,.caught n serializationFailure)
  | .attempt n, .fail err => (db,.caught n err)
  | .read n _, .fail err => (db,.caught n err)
  | .inserted n _ _, .fail err => (db,.caught n err)
  | .looking n err, .findUnique =>
    match db.paymentChecksum.rows.find? (fun row => row.paymentId == payment.id) with
    | some existing => (db,.returned (some existing.chainHash))
    | none => (db,.retry n err)
  | .looking _ _, .fail _ => (db,.thrown)
  | phase, _ => (db,phase)

structure Call where
  payment : ChainablePayment
  phase : Phase
deriving DecidableEq, Repr

/-- The database and the calls that were made, by number. -/
structure System where
  db : Database
  calls : Nat → Option Call

def System.start : System := ⟨⟨Table.empty,1⟩,fun _ => none⟩
def System.put (s : System) (c : Nat) (call : Call) : System :=
  { s with calls := fun d => if d = c then some call else s.calls d }

inductive Event where
  | appendPaymentChecksum (c : Nat) (payment : ChainablePayment)
  | move (c : Nat) (m : Move)
deriving DecidableEq, Repr

def step (s : System) : Event → Unit × System
  | .appendPaymentChecksum c payment => ((),s.put c ⟨payment,.attempt 1⟩)
  | .move c m =>
    match s.calls c with
    | none => ((),s)
    | some call =>
      let (db,phase) := advance s.db call.payment call.phase m
      ((),{ s with db := db }.put c ⟨call.payment,phase⟩)

structure ChainVerificationResult where
  valid : Bool
  checkedCount : Nat
  brokenAtSequence : Option Nat
  reason : Option String
deriving DecidableEq, Repr

/-- The loop of `verifyChain`. -/
def verifyFrom (previousHash : String) (checkedCount : Nat) : List PaymentChecksum → ChainVerificationResult
  | [] => ⟨true,checkedCount,none,none⟩
  | row :: rest =>
    if row.previousHash ≠ previousHash then
      ⟨false,checkedCount,some row.sequence,some
        ("Row " ++ row.id ++ " (sequence " ++ toString row.sequence ++ ") records previousHash \"" ++ row.previousHash ++
          "\" but the chain's actual previous chainHash is \"" ++ previousHash ++ "\"")⟩
    else if computeChainHash row.previousHash row.payloadHash ≠ row.chainHash then
      ⟨false,checkedCount,some row.sequence,some
        ("Row " ++ row.id ++ " (sequence " ++ toString row.sequence ++ ") chainHash does not match recomputed value — " ++
          "its payloadHash, previousHash, or stored chainHash has been altered")⟩
    else verifyFrom row.chainHash (checkedCount + 1) rest

def verifyChain (rows : List PaymentChecksum) : ChainVerificationResult := verifyFrom GENESIS_HASH 0 (inSequence rows)

/-- The rows link up from a hash, each with the hash of its own link. -/
def Chained : String → List PaymentChecksum → Prop
  | _, [] => True
  | previousHash, row :: rest =>
    row.previousHash = previousHash ∧ row.chainHash = computeChainHash row.previousHash row.payloadHash ∧
      Chained row.chainHash rest

def lastHash (previousHash : String) (rows : List PaymentChecksum) : String :=
  (rows.getLast?.map PaymentChecksum.chainHash).getD previousHash
@[simp] theorem lastHash_nil (previousHash : String) : lastHash previousHash [] = previousHash := rfl

@[simp] theorem lastHash_cons (previousHash : String) (row : PaymentChecksum) (rest : List PaymentChecksum) :
    lastHash previousHash (row :: rest) = lastHash row.chainHash rest := by
  cases rest with
  | nil => rfl
  | cons next rest =>
    rw [lastHash,lastHash,List.getLast?_cons_cons]
    simp [List.getLast?_cons]

variable {previousHash : String}

theorem chained_append {first second : List PaymentChecksum} :
    Chained previousHash (first ++ second) ↔
      Chained previousHash first ∧ Chained (lastHash previousHash first) second := by
  induction first generalizing previousHash with
  | nil => simp [Chained]
  | cons row rest ih => simp [Chained,ih,and_assoc]

theorem verifyFrom_valid (previousHash : String) (checkedCount : Nat) (rows : List PaymentChecksum) :
    (verifyFrom previousHash checkedCount rows).valid = true ↔ Chained previousHash rows := by
  induction rows generalizing previousHash checkedCount with
  | nil => simp [verifyFrom,Chained]
  | cons row rest ih =>
    unfold verifyFrom Chained
    by_cases linked : row.previousHash = previousHash
    · by_cases hashed : computeChainHash row.previousHash row.payloadHash = row.chainHash
      · simp only [linked,ne_eq,not_true_eq_false,↓reduceIte,true_and]
        rw [← linked,if_neg (not_not_intro hashed),ih]
        simp [hashed]
      · simp only [linked,ne_eq,not_true_eq_false,↓reduceIte,true_and]
        rw [← linked,if_pos hashed]
        simp [Ne.symm hashed]
    · simp [linked]

theorem verifyFrom_chained {rows : List PaymentChecksum} (chained : Chained previousHash rows) (checkedCount : Nat) :
    verifyFrom previousHash checkedCount rows = ⟨true,checkedCount + rows.length,none,none⟩ := by
  induction rows generalizing previousHash checkedCount with
  | nil => rfl
  | cons row rest ih =>
    obtain ⟨rfl,hashed,rest'⟩ := chained
    simp only [verifyFrom,← hashed,ne_eq,not_true_eq_false,↓reduceIte,List.length_cons]
    rw [ih rest',Nat.add_assoc,Nat.add_comm 1]

theorem inSequence_ascending {rows : List PaymentChecksum}
    (ascending : rows.Pairwise fun a b => a.sequence < b.sequence) : inSequence rows = rows := by
  apply List.Pairwise.insertionSort_eq
  exact ascending.imp fun less => Nat.le_of_lt less

/-- The committed rows are a chain, and their sequence grows with each commit. -/
structure Linear (db : Database) : Prop where
  chained : Chained GENESIS_HASH db.paymentChecksum.rows
  ascending : db.paymentChecksum.rows.Pairwise fun a b => a.sequence < b.sequence
  taken : ∀ row ∈ db.paymentChecksum.rows, row.sequence < db.nextSequence

/-- Rows are added, sequence values are taken. -/
def Grows (db db' : Database) : Prop :=
  db.paymentChecksum.rows ⊆ db'.paymentChecksum.rows ∧ db.nextSequence ≤ db'.nextSequence

theorem grows_refl (db : Database) : Grows db db := ⟨fun _ member => member,Nat.le_refl _⟩

/-- What a call relies on where it stands. -/
def PhaseOk (db : Database) (payment : ChainablePayment) : Phase → Prop
  | .read _ snapshot => ∀ row ∈ snapshot, row.sequence < db.nextSequence
  | .inserted _ snapshot row =>
    ∃ sequence id now, row = newRow payment snapshot sequence id now ∧ sequence < db.nextSequence ∧
      ∀ seen ∈ snapshot, seen.sequence < sequence
  | .returned (some chainHash) =>
    ∃ row ∈ db.paymentChecksum.rows, row.paymentId = payment.id ∧ row.chainHash = chainHash
  | _ => True

variable {db : Database} {phase : Phase}

theorem phaseOk_grows {db' : Database} (grows : Grows db db') {payment : ChainablePayment} (ok : PhaseOk db payment phase) :
    PhaseOk db' payment phase := by
  obtain ⟨kept,taken⟩ := grows
  cases phase with
  | read n snapshot => exact fun row seen => Nat.lt_of_lt_of_le (ok row seen) taken
  | inserted n snapshot row =>
    obtain ⟨sequence,id,now,rowIs,less,later⟩ := ok
    exact ⟨sequence,id,now,rowIs,Nat.lt_of_lt_of_le less taken,later⟩
  | returned chainHash =>
    cases chainHash with
    | none => trivial
    | some chainHash =>
      obtain ⟨row,member,paid,hashed⟩ := ok
      exact ⟨row,kept member,paid,hashed⟩
  | _ => trivial

@[simp] theorem phaseOk_caught (db : Database) (payment : ChainablePayment) (n : Nat) (err : Failure) :
    PhaseOk db payment (.caught n err) := by
  unfold Phase.caught Phase.retry
  split
  · trivial
  · split <;> trivial

@[simp] theorem phaseOk_retry (db : Database) (payment : ChainablePayment) (n : Nat) (err : Failure) :
    PhaseOk db payment (.retry n err) := by
  unfold Phase.retry
  split <;> trivial

theorem linear_insert (linear : Linear db) {payment : ChainablePayment} {sequence : Nat} {id : String} {now : Nat}
    {table : Table PaymentChecksum samePayment}
    (inserted : db.paymentChecksum.insert (newRow payment db.paymentChecksum.rows sequence id now) = some table)
    (less : sequence < db.nextSequence) (later : ∀ seen ∈ db.paymentChecksum.rows, seen.sequence < sequence) :
    Linear { db with paymentChecksum := table } := by
  have rowsAre := insert_rows inserted
  constructor
  · show Chained GENESIS_HASH table.rows
    rw [rowsAre,chained_append]
    refine ⟨linear.chained,?_,rfl,trivial⟩
    simp only [newRow,findTail,inSequence_ascending linear.ascending,lastHash]
  · show table.rows.Pairwise _
    rw [rowsAre,List.pairwise_append]
    refine ⟨linear.ascending,List.pairwise_singleton ..,?_⟩
    intro seen member last same
    obtain rfl := List.mem_singleton.mp same
    exact later seen member
  · intro row member
    have either : row ∈ db.paymentChecksum.rows ++ [newRow payment db.paymentChecksum.rows sequence id now] := rowsAre ▸ member
    rw [List.mem_append,List.mem_singleton] at either
    rcases either with old | rfl
    · exact linear.taken row old
    · exact less

/-- What a move leaves: a chain that grew, and a call that stands where it may. -/
def Leaves (db : Database) (payment : ChainablePayment) (left : Database × Phase) : Prop :=
  Linear left.1 ∧ Grows db left.1 ∧ PhaseOk left.1 payment left.2

section
variable (linear : Linear db)
include linear

theorem leaves_same {payment : ChainablePayment} (ok : PhaseOk db payment phase) :
    Leaves db payment (db,phase) :=
  ⟨linear,grows_refl db,ok⟩

theorem leaves_create {payment : ChainablePayment} {snapshot : List PaymentChecksum}
    (seen : ∀ row ∈ snapshot, row.sequence < db.nextSequence) (n : Nat) (id : String) (now : Nat) :
    Leaves db payment (advance db payment (.read n snapshot) (.create id now)) := by
  have grown : Grows db { db with nextSequence := db.nextSequence + 1 } := ⟨fun _ member => member,Nat.le_succ _⟩
  have still : Linear { db with nextSequence := db.nextSequence + 1 } :=
    ⟨linear.chained,linear.ascending,fun row member => Nat.lt_succ_of_lt (linear.taken row member)⟩
  by_cases held : db.paymentChecksum.holds (newRow payment snapshot db.nextSequence id now) = true
  · simp only [advance,held,↓reduceIte]
    exact ⟨still,grown,phaseOk_caught _ payment n uniqueViolation⟩
  · simp only [advance,held]
    exact ⟨still,grown,db.nextSequence,id,now,rfl,Nat.lt_succ_self _,seen⟩

theorem leaves_commit {payment : ChainablePayment} {n : Nat} {snapshot : List PaymentChecksum}
    {row : PaymentChecksum} (ok : PhaseOk db payment (.inserted n snapshot row)) (lost : Option Failure) :
    Leaves db payment (advance db payment (.inserted n snapshot row) (.commit lost)) := by
  obtain ⟨sequence,id,now,rowIs,less,later⟩ := ok
  by_cases same : db.paymentChecksum.rows = snapshot
  · cases inserted : db.paymentChecksum.insert row with
    | none =>
      simp only [advance,same,inserted,↓reduceIte]
      exact leaves_same linear (phaseOk_caught ..)
    | some table =>
      simp only [advance,same,inserted,↓reduceIte]
      subst same rowIs
      have rowsAre := insert_rows inserted
      have grown : Grows db { db with paymentChecksum := table } := by
        refine ⟨?_,Nat.le_refl _⟩
        show _ ⊆ table.rows
        rw [rowsAre]
        exact List.subset_append_left ..
      refine ⟨linear_insert linear inserted less later,grown,?_⟩
      cases lost with
      | some err => exact phaseOk_caught ..
      | none =>
        refine ⟨newRow payment db.paymentChecksum.rows sequence id now,?_,rfl,rfl⟩
        show _ ∈ table.rows
        rw [rowsAre]
        exact List.mem_append_right _ (List.mem_singleton_self _)
  · simp only [advance,same,↓reduceIte]
    exact leaves_same linear (phaseOk_caught ..)

theorem leaves_findUnique (payment : ChainablePayment) (n : Nat) (err : Failure) :
    Leaves db payment (advance db payment (.looking n err) .findUnique) := by
  cases found : db.paymentChecksum.rows.find? (fun row => row.paymentId == payment.id) with
  | none =>
    simp only [advance,found]
    exact leaves_same linear (phaseOk_retry ..)
  | some existing =>
    simp only [advance,found]
    refine leaves_same linear ⟨existing,List.mem_of_find?_eq_some found,?_,rfl⟩
    simpa using List.find?_some found

theorem leaves_advance {payment : ChainablePayment} (ok : PhaseOk db payment phase) (m : Move) :
    Leaves db payment (advance db payment phase m) := by
  cases phase with
  | attempt n =>
    cases m with
    | findFirst => exact leaves_same linear linear.taken
    | fail err => exact leaves_same linear (phaseOk_caught ..)
    | _ => exact leaves_same linear ok
  | read n snapshot =>
    cases m with
    | create id now => exact leaves_create linear ok n id now
    | fail err => exact leaves_same linear (phaseOk_caught ..)
    | _ => exact leaves_same linear ok
  | inserted n snapshot row =>
    cases m with
    | commit lost => exact leaves_commit linear ok lost
    | fail err => exact leaves_same linear (phaseOk_caught ..)
    | _ => exact leaves_same linear ok
  | looking n err =>
    cases m with
    | findUnique => exact leaves_findUnique linear payment n err
    | _ => exact leaves_same linear trivial
  | returned chainHash => cases m <;> exact leaves_same linear ok
  | thrown => cases m <;> exact leaves_same linear trivial

end

/-- The database is one chain and every call stands where it may. -/
def Sound (s : System) : Prop :=
  Linear s.db ∧ ∀ c call, s.calls c = some call → PhaseOk s.db call.payment call.phase

theorem sound_put {s : System} (linear : Linear db) (grows : Grows s.db db)
    (others : ∀ c call, s.calls c = some call → PhaseOk s.db call.payment call.phase) (call : Call)
    (ok : PhaseOk db call.payment call.phase) (c : Nat) : Sound ({ s with db := db }.put c call) := by
  refine ⟨linear,?_⟩
  intro d other found
  by_cases same : d = c
  · simp only [System.put,same,↓reduceIte,Option.some.injEq] at found
    exact found ▸ ok
  · simp only [System.put,same,↓reduceIte] at found
    exact phaseOk_grows grows (others d other found)

theorem sound_step (s : System) (event : Event) (sound : Sound s) : Sound (step s event).2 := by
  obtain ⟨linear,calls⟩ := sound
  cases event with
  | appendPaymentChecksum c payment => exact sound_put linear (grows_refl s.db) calls ⟨payment,.attempt 1⟩ trivial c
  | move c m =>
    cases found : s.calls c with
    | none =>
      simp only [step,found]
      exact ⟨linear,calls⟩
    | some call =>
      simp only [step,found]
      obtain ⟨linear',grows,ok⟩ := leaves_advance linear (calls c call found) m
      exact sound_put linear' grows calls ⟨call.payment,_⟩ ok c

theorem sound_start : Sound System.start :=
  ⟨⟨trivial,List.Pairwise.nil,fun _ member => by cases member⟩,fun _ _ found => by cases found⟩
theorem sound_run (events : List Event) : Sound (run step System.start events) := run_inv sound_step sound_start events

/-- After every interleaving of appends the rows in sequence order are one chain from the genesis hash, with one row a payment; the
    calls that returned a hash have their rows in it, and `verifyChain` accepts it. -/
theorem chain_linear (events : List Event) :
    let s := run step System.start events
    let chain := inSequence s.db.paymentChecksum.rows
    chain.Pairwise (fun a b => a.sequence < b.sequence) ∧
      (∀ first rest, chain = first :: rest → first.previousHash = GENESIS_HASH) ∧
      (∀ before a b after, chain = before ++ a :: b :: after → b.previousHash = a.chainHash) ∧
      (chain.map PaymentChecksum.paymentId).Nodup ∧
      (∀ c payment chainHash, s.calls c = some ⟨payment,.returned (some chainHash)⟩ →
        ∃ row ∈ chain, row.paymentId = payment.id ∧ row.chainHash = chainHash) ∧
      verifyChain s.db.paymentChecksum.rows = ⟨true,chain.length,none,none⟩ := by
  intro s chain
  obtain ⟨linear,calls⟩ := sound_run events
  have chainIs : chain = s.db.paymentChecksum.rows := inSequence_ascending linear.ascending
  have chained : Chained GENESIS_HASH chain := chainIs ▸ linear.chained
  refine ⟨chainIs ▸ linear.ascending,?_,?_,?_,?_,?_⟩
  · intro first rest split
    rw [split] at chained
    exact chained.1
  · intro before a b after split
    rw [split,chained_append] at chained
    exact chained.2.2.2.1
  · rw [chainIs,List.Nodup,List.pairwise_map]
    exact s.db.paymentChecksum.unique.imp fun apart same => by simp [samePayment,same] at apart
  · intro c payment chainHash found
    rw [chainIs]
    exact calls c _ found
  · rw [verifyChain,verifyFrom_chained chained,Nat.zero_add]

end StellarAlerts.ChecksumChain
