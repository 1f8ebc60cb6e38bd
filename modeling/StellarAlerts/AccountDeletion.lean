import StellarAlerts.ForeignKeys

/-!
The deletion of an account: in one transaction the rows of the user are deleted table by
table, children before parents, and the user at the end.
-/
namespace StellarAlerts.AccountDeletion
open ForeignKeys

/-- The tables that a deletion of users, wallets or webhooks reaches, and those that name users or wallets. -/
inductive Table where
  | user
  | apiKey
  | wallet
  | ingestionCursor
  | payment
  | paymentArchive
  | notificationPreference
  | paymentChecksum
  | alertRule
  | telegramSyncCode
  | webhook
  | webhookLog
  | webhookCircuitBreaker
  | exportJob
  | transactionSimulation
  | sorobanContractSubscription
  | multisigSignerWatcher
  | anchorTransactionWatch
  | dexSwapWatch
  | notificationDelivery
  | notificationDeliveryAttempt
  | deadLetter
  | webhookSandboxReplay
  | deadLetterAudit
  | mfaRecoveryCode
  | refreshSession
  | refreshTokenHistory
deriving DecidableEq, Repr

inductive Column where
  | id
  | userId
  | actorUserId
  | walletId
  | paymentId
  | webhookId
  | deliveryId
  | deadLetterId
  | familyId
deriving DecidableEq, Repr

def Table.columns : Table → List Column
  | .user => [.id]
  | .wallet => [.id,.userId]
  | .ingestionCursor | .payment | .paymentArchive => [.id,.walletId]
  | .paymentChecksum => [.id,.paymentId]
  | .alertRule => [.id,.userId,.walletId]
  | .webhookLog | .webhookCircuitBreaker => [.id,.webhookId]
  | .notificationDelivery => [.id,.paymentId,.userId]
  | .notificationDeliveryAttempt => [.id,.deliveryId,.paymentId,.userId]
  | .deadLetter => [.id,.paymentId,.userId]
  | .webhookSandboxReplay => [.id,.deadLetterId,.userId]
  | .deadLetterAudit => [.id,.deadLetterId,.actorUserId]
  | .refreshSession => [.id,.familyId,.userId]
  | .refreshTokenHistory => [.id,.familyId,.userId]
  | _ => [.id,.userId]

abbrev Row := ForeignKeys.Row Table Column String
abbrev Key := ForeignKey Table Column

/-- A column that holds the id of a row of the other table. -/
def references (child : Table) (column : Column) (parent : Table) (onDelete : Action) : Key := ⟨child,column,parent,.id,onDelete⟩

/-- The relations of the schema; where it says nothing of deletion, it restricts. -/
def foreignKeys : List Key :=
  [references .apiKey .userId .user .cascade,
    references .wallet .userId .user .restrict,
    references .ingestionCursor .walletId .wallet .cascade,
    references .payment .walletId .wallet .restrict,
    references .notificationPreference .userId .user .restrict,
    references .paymentChecksum .paymentId .payment .restrict,
    references .alertRule .userId .user .cascade,
    references .alertRule .walletId .wallet .cascade,
    references .telegramSyncCode .userId .user .cascade,
    references .webhook .userId .user .restrict,
    references .webhookLog .webhookId .webhook .cascade,
    references .webhookCircuitBreaker .webhookId .webhook .cascade,
    references .exportJob .userId .user .cascade,
    references .transactionSimulation .userId .user .cascade,
    references .sorobanContractSubscription .userId .user .cascade,
    references .multisigSignerWatcher .userId .user .cascade,
    references .anchorTransactionWatch .userId .user .cascade,
    references .dexSwapWatch .userId .user .cascade,
    references .notificationDelivery .paymentId .payment .cascade,
    references .notificationDelivery .userId .user .setNull,
    references .notificationDeliveryAttempt .deliveryId .notificationDelivery .cascade,
    references .notificationDeliveryAttempt .paymentId .payment .setNull,
    references .notificationDeliveryAttempt .userId .user .setNull,
    references .deadLetter .paymentId .payment .setNull,
    references .deadLetter .userId .user .setNull,
    references .webhookSandboxReplay .deadLetterId .deadLetter .cascade,
    references .webhookSandboxReplay .userId .user .cascade,
    references .deadLetterAudit .deadLetterId .deadLetter .cascade,
    references .mfaRecoveryCode .userId .user .cascade,
    references .refreshSession .userId .user .cascade,
    ⟨.refreshTokenHistory,.familyId,.refreshSession,.familyId,.cascade⟩]

theorem foreignKeys_tidy : Tidy foreignKeys := by
  constructor <;> decide

/-- Rows with columns of their tables only, with distinct ids and families, and with foreign keys that are enforced. -/
structure Database where
  rows : List Row
  shaped : ∀ r ∈ rows, ∀ column, column ∉ r.table.columns → r.value column = none
  ids : ∀ p ∈ rows, ∀ q ∈ rows, p.table = q.table → p.value .id = q.value .id → p = q
  families : ∀ p ∈ rows, ∀ q ∈ rows, p.table = .refreshSession → q.table = .refreshSession →
    p.value .familyId = q.value .familyId → p = q
  integral : Integral foreignKeys rows

theorem id_kept {rows : List Row} {gone : Row → Bool} (r : Row) : (forget foreignKeys rows gone r).value .id = r.value .id := by
  refine forget_kept fun fk listed kind own => ?_
  have none_ : ∀ fk ∈ foreignKeys, fk.onDelete = .setNull → fk.column ≠ .id := by decide
  exact none_ fk listed kind own.2

theorem familyId_kept {rows : List Row} {gone : Row → Bool} (r : Row) :
    (forget foreignKeys rows gone r).value .familyId = r.value .familyId := by
  refine forget_kept fun fk listed kind own => ?_
  have none_ : ∀ fk ∈ foreignKeys, fk.onDelete = .setNull → fk.column ≠ .familyId := by decide
  exact none_ fk listed kind own.2

def Database.delete (db : Database) (chosen : Row → Bool) (allowed : forbidden foreignKeys db.rows chosen = false) : Database where
  rows := removed foreignKeys db.rows chosen
  shaped := by
    intro r' among column missing
    obtain ⟨r,there,-,rfl⟩ := mem_removed.mp among
    rw [forget_value,db.shaped r there column missing]
    split <;> rfl
  ids := by
    intro p' first q' second sameTable same
    obtain ⟨p,there,-,rfl⟩ := mem_removed.mp first
    obtain ⟨q,thereToo,-,rfl⟩ := mem_removed.mp second
    rw [id_kept,id_kept] at same
    rw [db.ids p there q thereToo sameTable same]
  families := by
    intro p' first q' second isSession isSessionToo same
    obtain ⟨p,there,-,rfl⟩ := mem_removed.mp first
    obtain ⟨q,thereToo,-,rfl⟩ := mem_removed.mp second
    rw [familyId_kept,familyId_kept] at same
    rw [db.families p there q thereToo isSession isSessionToo same]
  integral := removed_integral foreignKeys_tidy db.integral allowed

/-- Statements one after the other, by number; an error ends them. -/
abbrev Transaction (α : Type) := StateT (Nat × Database) (Except String) α

/-- What the database answers to a deletion that a foreign key restricts. -/
def foreignKeyViolated : String := "Foreign key constraint violated"

def recordNotFound : String := "No record was found for a delete."

section Statements
variable (outage : Nat → Option String)

/-- Any statement may fail. -/
def statement {α : Type} (execute : Database → Except String (α × Database)) : Transaction α := fun s =>
  match outage s.1 with
  | some message => .error message
  | none => (execute s.2).map fun done => (done.1,(s.1 + 1,done.2))

def valuesWhere (column : Column) (table : Table) (test : Row → Bool) (rows : List Row) : List String :=
  rows.filterMap fun r => if r.table = table && test r then r.value column else none
def idsWhere : Table → (Row → Bool) → List Row → List String := valuesWhere .id
def findMany (table : Table) (test : Row → Bool) : Transaction (List String) :=
  statement outage fun db => .ok (idsWhere table test db.rows,db)
def inTable (table : Table) (test : Row → Bool) (r : Row) : Bool := r.table = table && test r

def Database.deleteWhere (db : Database) (chosen : Row → Bool) : Except String (Nat × Database) :=
  if allowed : forbidden foreignKeys db.rows chosen = false then .ok (db.rows.countP chosen,db.delete chosen allowed)
  else .error foreignKeyViolated

def deleteMany (table : Table) (test : Row → Bool) : Transaction Nat :=
  statement outage fun db => db.deleteWhere (inTable table test)

def deleteUnique (table : Table) (test : Row → Bool) : Transaction Nat :=
  statement outage fun db =>
    if db.rows.any (inTable table test) then db.deleteWhere (inTable table test) else .error recordNotFound

/-- `{ column: value }`. -/
def equals (column : Column) (value : String) (r : Row) : Bool := r.value column = some value

/-- `{ column: { in: values } }`. -/
def isIn (column : Column) (values : List String) (r : Row) : Bool := (r.value column).any fun value => value ∈ values

structure DeletionCounts where
  webhookLogs : Nat
  webhookCircuitBreakers : Nat
  webhooks : Nat
  payments : Nat
  ingestionCursors : Nat
  wallets : Nat
  notificationPreferences : Nat
  sorobanSubscriptions : Nat
  multisigWatches : Nat
  anchorWatches : Nat
  dexSwapWatches : Nat
  users : Nat

structure DeletionSummary where
  deletedAt : String
  userId : String
  counts : DeletionCounts

/-- The body of the transaction; `now` is the time at its end. -/
def deleteRows (now userId : String) : Transaction DeletionSummary := do
  let webhookIds ← findMany outage .webhook (equals .userId userId)
  let logsDeleted ← deleteMany outage .webhookLog (isIn .webhookId webhookIds)
  let circuitBreakersDeleted ← deleteMany outage .webhookCircuitBreaker (isIn .webhookId webhookIds)
  let webhooksDeleted ← deleteMany outage .webhook (equals .userId userId)
  let walletIds ← findMany outage .wallet (equals .userId userId)
  let paymentsDeleted ← deleteMany outage .payment (isIn .walletId walletIds)
  let cursorsDeleted ← deleteMany outage .ingestionCursor (isIn .walletId walletIds)
  let walletsDeleted ← deleteMany outage .wallet (equals .userId userId)
  let prefsDeleted ← deleteMany outage .notificationPreference (equals .userId userId)
  let sorobanDeleted ← deleteMany outage .sorobanContractSubscription (equals .userId userId)
  let multisigDeleted ← deleteMany outage .multisigSignerWatcher (equals .userId userId)
  let anchorDeleted ← deleteMany outage .anchorTransactionWatch (equals .userId userId)
  let dexDeleted ← deleteMany outage .dexSwapWatch (equals .userId userId)
  let _ ← deleteUnique outage .user (equals .id userId)
  return {
    deletedAt := now
    userId
    counts := {
      webhookLogs := logsDeleted
      webhookCircuitBreakers := circuitBreakersDeleted
      webhooks := webhooksDeleted
      payments := paymentsDeleted
      ingestionCursors := cursorsDeleted
      wallets := walletsDeleted
      notificationPreferences := prefsDeleted
      sorobanSubscriptions := sorobanDeleted
      multisigWatches := multisigDeleted
      anchorWatches := anchorDeleted
      dexSwapWatches := dexDeleted
      users := 1 } }

/-- `prisma.$transaction(...)`: an error rolls everything back. -/
def transaction {α : Type} (db : Database) (body : Transaction α) : Except String α × Database :=
  match body (0,db) with
  | .ok (a,(_,db')) => (.ok a,db')
  | .error message => (.error message,db)

def deleteAccount (now userId : String) (db : Database) : Except String DeletionSummary × Database :=
  transaction db (deleteRows outage now userId)

end Statements

end StellarAlerts.AccountDeletion
