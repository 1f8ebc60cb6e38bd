import StellarAlerts.Actions
import StellarAlerts.UniqueTables
import StellarAlerts.CursorRecovery
import StellarAlerts.Horizon
import StellarAlerts.WalletLocks

/-!
The watcher's handling of payment records. A record is decoded, its alert is decided
from the user's rules, and one transaction under the wallet's mutex inserts the payment,
its outbox events and the cursor advance.
-/
namespace StellarAlerts.Watcher
open Actions UniqueTables CursorRecovery Horizon WalletLocks

/-- The event that alert rules are evaluated against. -/
structure NormalizedPaymentEvent (Num : Type) where
  paymentId : String
  txHash : String
  walletId : String
  userId : String
  amount : Num
  asset : String
  assetIssuer : Option String
  fromAddress : String
  memo : Option String
  receivedAt : String

/-- What a preference's filter rules are evaluated against. -/
structure PaymentContext (Num : Type) where
  amount : Num
  asset : String
  fromAddress : String
  memo : Option String

/-- Numbers, dates and the modules that the handler imports. Where one of these throws, the trial fails at the stage that calls it. -/
structure Platform where
  Num : Type
  Date : Type
  Rule : Type
  FilterRules : Type
  Operation : Type
  Number : String → Num
  newDate : String → Date
  toISOString : Date → String
  parseSacTransferEvent : Operation → Option SacTransfer
  matchesAlertRule : Rule → NormalizedPaymentEvent Num → Bool
  ruleId : Rule → String
  shouldAlert : FilterRules → PaymentContext Num → Bool
  isValidEd25519PublicKey : String → Bool

variable {p : Platform}

structure Wallet where
  id : String
  publicKey : String
  userId : Option String
  deriving DecidableEq, Repr

/-- The wallet's user, where the handler's test `if (wallet.userId)` passes. -/
def Wallet.user (wallet : Wallet) : Option String := orNull wallet.userId

/-- A row of the payment table. -/
structure Payment (p : Platform) where
  id : String
  walletId : String
  txHash : String
  fromAddress : String
  amount : p.Num
  asset : String
  assetIssuer : Option String
  memo : Option String
  receivedAt : p.Date

/-- The identifier and the transaction hash are unique. -/
def Payment.clash (a b : Payment p) : Bool := a.id == b.id || a.txHash == b.txHash

structure AlertPayload where
  paymentId : String
  txHash : String
  walletId : String
  amount : String
  asset : String
  assetIssuer : Option String
  fromAddress : String
  receivedAt : String
  deriving DecidableEq, Repr

inductive OutboxEventType where
  | alert
  | realtime
  deriving DecidableEq, Repr

def OutboxEventType.text : OutboxEventType → String
  | .alert => "payment.alert"
  | .realtime => "payment.realtime"

structure OutboxEventInput where
  eventType : OutboxEventType
  aggregateId : String
  payload : AlertPayload
  deriving DecidableEq, Repr

def outboxIdempotencyKey (eventType aggregateId : String) : String := eventType ++ ":" ++ aggregateId

/-- A pending row of the outbox. -/
structure OutboxEvent where
  eventType : OutboxEventType
  aggregateId : String
  payload : AlertPayload
  idempotencyKey : String
  deriving DecidableEq, Repr

def OutboxEvent.clash (a b : OutboxEvent) : Bool := a.idempotencyKey == b.idempotencyKey
def OutboxEventInput.row (event : OutboxEventInput) : OutboxEvent :=
  ⟨event.eventType,event.aggregateId,event.payload,outboxIdempotencyKey event.eventType.text event.aggregateId⟩

structure AlertRuleDispatchLog where
  paymentId : String
  matchedRuleIds : List String
  deriving DecidableEq, Repr

def AlertRuleDispatchLog.clash (a b : AlertRuleDispatchLog) : Bool := a.paymentId == b.paymentId

/-- The tables that the watcher writes, and the alert jobs it has enqueued. -/
structure World (p : Platform) where
  payment : Table (Payment p) Payment.clash
  outboxEvent : Table OutboxEvent OutboxEvent.clash
  ingestionCursor : String → Option (IngestionCursor p.Date)
  alertRuleDispatchLog : Table AlertRuleDispatchLog AlertRuleDispatchLog.clash
  alertQueue : List AlertPayload

def World.empty : World p := ⟨.empty,.empty,fun _ => none,.empty,[]⟩
def World.pagingToken (world : World p) (walletId : String) : Option String :=
  (world.ingestionCursor walletId).map (·.pagingToken)
def World.setCursor (world : World p) (walletId : String) (cursor : IngestionCursor p.Date) : World p :=
  { world with ingestionCursor := fun other => if other = walletId then some cursor else world.ingestionCursor other }

/-- `ingestionCursor.upsert`. -/
def World.upsertCursor (world : World p) (walletId pagingToken : String) (update : IngestionCursorHealthUpdate p.Date) :
    World p :=
  world.setCursor walletId
    (match world.ingestionCursor walletId with
    | none => .create pagingToken
    | some cursor => { cursor.withHealth update with pagingToken := pagingToken })

/-- The places where a call of the handler can fail. -/
inductive Stage where
  | parseSacTransferEvent
  | findExisting
  | findAlertRules
  | evaluateAlertRules
  | findPreference
  | shouldAlert
  | createPayment
  | findPersisted
  | recordOutbox
  | findCursor
  | upsertCursor
  | commit
  | commitAnswer
  | appendChecksum
  | publish
  | alertPayload
  | dispatchRules
  | hasDispatched
  | recordDispatch
  | findPreferenceAgain
  | shouldAlertAgain
  | enqueueAlert
  | clearGap
  deriving DecidableEq, Repr

/-- The stages that run once the transaction has committed. -/
def Stage.afterCommit : Stage → Bool
  | .commitAnswer | .appendChecksum | .publish | .alertPayload | .dispatchRules | .hasDispatched | .recordDispatch
  | .findPreferenceAgain | .shouldAlertAgain | .enqueueAlert | .clearGap => true
  | _ => false

structure SacMetadata where
  decimals : Int
  symbol : String
  deriving DecidableEq, Repr

/-- How the services answer during one call: the error of each failing stage, the clock, the rows that other modules own, the answers to
    the mutex's SET commands and the identifier of a new payment. -/
structure Trial (p : Platform) where
  fails : Stage → Option String
  now : p.Date
  sacMetadata : Option SacMetadata
  alertRules : List p.Rule
  filterRules : Option p.FilterRules
  filterRulesAgain : Option p.FilterRules
  lockAnswers : Nat → SetAnswer
  cuid : String

/-- The next step of a call; it throws where the services fail. -/
def reach {State Stage : Type} (fails : Stage → Option String) (stage : Stage) : Action State String Unit :=
  match fails stage with
  | some error => throw error
  | none => pure ()

/-- What a record says about a transfer of value. -/
structure Transfer where
  amount : String
  asset : String
  assetIssuer : Option String
  fromAddress : String
  memo : Option String
  deriving DecidableEq, Repr

/-- The transfer of a token contract, in the units and under the symbol of its metadata; a failed lookup keeps the defaults. -/
def sacPayment (metadata : Option SacMetadata) (sac : SacTransfer) : Transfer :=
  let known := if sac.contractId = "" then none else metadata
  let symbol := sac.assetCode.getD sac.contractId
  { amount := formatTokenAmount sac.rawAmount ((known.map (·.decimals)).getD 7)
    asset := orElse ((known.map (·.symbol)).getD "") symbol
    assetIssuer := sac.assetIssuer
    fromAddress := sac.from_
    memo := none }

def decodeRecord (trial : Trial p) : HorizonOperationRecord p.Operation → Action (World p) String (Option Transfer)
  | .payment _ record =>
    pure (some ⟨record.amount,(decodeHorizonAsset record).assetCode,(decodeHorizonAsset record).assetIssuer,
      record.from_,orNull record.memo⟩)
  | .create_account _ record => pure (some ⟨record.starting_balance,"XLM",none,record.funder,none⟩)
  | .other _ operation => do
    reach trial.fails .parseSacTransferEvent
    pure ((p.parseSacTransferEvent operation).map (sacPayment trial.sacMetadata))

def receivedAt (trial : Trial p) (record : HorizonOperationRecord p.Operation) : p.Date :=
  if record.base.created_at = "" then trial.now else p.newDate record.base.created_at
def evaluateAlertRules (rules : List p.Rule) (event : NormalizedPaymentEvent p.Num) : List p.Rule :=
  rules.filter (p.matchesAlertRule · event)

/-- The event of a transfer, before (with the empty text) or after its payment has an identifier. -/
def paymentEvent (wallet : Wallet) (userId : String) (trial : Trial p) (record : HorizonOperationRecord p.Operation)
    (transfer : Transfer) (paymentId : String) : NormalizedPaymentEvent p.Num :=
  { paymentId
    txHash := getHorizonTxHash record
    walletId := wallet.id
    userId
    amount := p.Number transfer.amount
    asset := transfer.asset
    assetIssuer := transfer.assetIssuer
    fromAddress := transfer.fromAddress
    memo := transfer.memo
    receivedAt := p.toISOString (receivedAt trial record) }

def paymentContext (transfer : Transfer) : PaymentContext p.Num :=
  ⟨p.Number transfer.amount,transfer.asset,transfer.fromAddress,transfer.memo⟩

/-- The user's rules, and whether an alert is due: the rules decide if there are
    any, else the filter of the preferences, else there is always an alert. -/
def decideAlert (wallet : Wallet) (trial : Trial p) (record : HorizonOperationRecord p.Operation) (transfer : Transfer)
    (existing : Bool) : Action (World p) String (List p.Rule × Bool) :=
  match existing, wallet.user with
  | false, some userId => do
    reach trial.fails .findAlertRules
    if 0 < trial.alertRules.length then
      reach trial.fails .evaluateAlertRules
      pure (trial.alertRules,
        decide (0 < (evaluateAlertRules trial.alertRules (paymentEvent wallet userId trial record transfer "")).length))
    else
      reach trial.fails .findPreference
      match trial.filterRules with
      | none => pure ([],true)
      | some filterRules => do
        reach trial.fails .shouldAlert
        pure ([],p.shouldAlert filterRules (paymentContext transfer))
  | _, _ => pure ([],true)

def paymentRow (wallet : Wallet) (trial : Trial p) (record : HorizonOperationRecord p.Operation) (transfer : Transfer) :
    Payment p :=
  { id := trial.cuid
    walletId := wallet.id
    txHash := getHorizonTxHash record
    fromAddress := transfer.fromAddress
    amount := p.Number transfer.amount
    asset := transfer.asset
    assetIssuer := transfer.assetIssuer
    memo := transfer.memo
    receivedAt := receivedAt trial record }

def alertPayload (wallet : Wallet) (trial : Trial p) (record : HorizonOperationRecord p.Operation) (transfer : Transfer)
    (paymentId : String) : AlertPayload :=
  { paymentId
    txHash := getHorizonTxHash record
    walletId := wallet.id
    amount := transfer.amount
    asset := transfer.asset
    assetIssuer := transfer.assetIssuer
    fromAddress := transfer.fromAddress
    receivedAt := p.toISOString (receivedAt trial record) }

def paymentEvents (shouldSendAlert : Bool) (payload : AlertPayload) : List OutboxEventInput :=
  (if shouldSendAlert then [⟨.alert,payload.paymentId,payload⟩] else []) ++ [⟨.realtime,payload.paymentId,payload⟩]

/-- `outboxService.record`. -/
def recordOutbox (events : List OutboxEventInput) : Action (World p) String Unit :=
  modify fun world => { world with outboxEvent := (world.outboxEvent.createMany (events.map (·.row))).2 }

/-- `payment.createMany` with `skipDuplicates`, answering the count. -/
def createPayment (row : Payment p) : Action (World p) String Nat := do
  let world ← get
  modify fun world => { world with payment := (world.payment.createMany [row]).2 }
  pure (world.payment.createMany [row]).1

/-- The gap between the persisted token and the record's. -/
def cursorGap (skipGapCheck : Bool) (previous : Option String) (pagingToken : String) : GapDetectionResult :=
  if skipGapCheck then noGap else detectLedgerGap previous (some pagingToken) DEFAULT_MAX_LEDGER_JUMP

def cursorCanAdvance (previous : Option String) (pagingToken : String) : Bool :=
  match previous with
  | none => true
  | some current => isPagingTokenAtLeast pagingToken current

/-- The cursor's row is written with the health that the gap asks for. -/
def saveAdvance (wallet : Wallet) (trial : Trial p) (gap : GapDetectionResult) (pagingToken : String) :
    Action (World p) String Unit := do
  reach trial.fails .upsertCursor
  modify fun world => world.upsertCursor wallet.id pagingToken
    (if gap.hasGap then buildCursorGapUpdate gap.ledgerDelta trial.now else buildCursorSuccessUpdate trial.now)

def advanceCursor (wallet : Wallet) (trial : Trial p) (skipGapCheck : Bool) :
    Option String → Action (World p) String GapDetectionResult
  | none => pure noGap
  | some pagingToken => do
    reach trial.fails .findCursor
    let world ← get
    let previous := world.pagingToken wallet.id
    let gap := cursorGap skipGapCheck previous pagingToken
    if cursorCanAdvance previous pagingToken then
      saveAdvance wallet trial gap pagingToken
      pure gap
    else pure gap

/-- The outbox part of the transaction: only an insertion records events. -/
def recordInserted (wallet : Wallet) (trial : Trial p) (record : HorizonOperationRecord p.Operation)
    (transfer : Transfer) (shouldSendAlert : Bool) (count : Nat) (paymentId : String) : Action (World p) String Unit :=
  if 0 < count then do
    reach trial.fails .recordOutbox
    recordOutbox (paymentEvents shouldSendAlert (alertPayload wallet trial record transfer paymentId))
  else pure ()

structure TransactionResult (p : Platform) where
  payment : Payment p
  isNewPayment : Bool
  gap : GapDetectionResult

def ingest (wallet : Wallet) (trial : Trial p) (record : HorizonOperationRecord p.Operation) (transfer : Transfer)
    (skipGapCheck shouldSendAlert : Bool) : Action (World p) String (TransactionResult p) := do
  reach trial.fails .createPayment
  let count ← createPayment (paymentRow wallet trial record transfer)
  reach trial.fails .findPersisted
  let world ← get
  match world.payment.rows.find? (·.txHash = getHorizonTxHash record) with
  | none => throw ("Payment " ++ getHorizonTxHash record ++ " was not available after its transactional insert")
  | some persisted => do
    recordInserted wallet trial record transfer shouldSendAlert count persisted.id
    let gap ← advanceCursor wallet trial skipGapCheck (getHorizonPagingToken record)
    reach trial.fails .commit
    pure ⟨persisted,decide (0 < count),gap⟩

/-- `withWalletLock`; releasing the mutex never throws. -/
def withWalletLock {α : Type} (answers : Nat → SetAnswer) (retryCount : Nat) (fn : Action (World p) String α) :
    Action (World p) String (Option α) :=
  if Mutex.acquireWalletLock answers retryCount then some <$> fn else pure none

def enqueuePaymentAlert (trial : Trial p) (payload : AlertPayload) : Action (World p) String Unit := do
  reach trial.fails .enqueueAlert
  modify fun world => { world with alertQueue := world.alertQueue ++ [payload] }

/-- `evaluateAndDispatch` on the rules that the handler has loaded. -/
def evaluateAndDispatch (trial : Trial p) (alertRules : List p.Rule) (event : NormalizedPaymentEvent p.Num)
    (payload : AlertPayload) : Action (World p) String Unit := do
  reach trial.fails .dispatchRules
  let matched := evaluateAlertRules alertRules event
  if matched.length = 0 then pure ()
  else
    reach trial.fails .hasDispatched
    let world ← get
    if world.alertRuleDispatchLog.rows.any (·.paymentId = event.paymentId) then pure ()
    else
      reach trial.fails .recordDispatch
      modify fun world => { world with
        alertRuleDispatchLog := (world.alertRuleDispatchLog.createMany [⟨event.paymentId,matched.map p.ruleId⟩]).2 }
      enqueuePaymentAlert trial payload

/-- The alert job of a new payment, by the rules or else by the filter of the preferences, which are read again. -/
def dispatchAlert (wallet : Wallet) (trial : Trial p) (record : HorizonOperationRecord p.Operation)
    (transfer : Transfer) (alertRules : List p.Rule) (paymentId : String) : Action (World p) String Unit :=
  let payload := alertPayload wallet trial record transfer paymentId
  match wallet.user with
  | none => enqueuePaymentAlert trial payload
  | some userId =>
    if 0 < alertRules.length then
      evaluateAndDispatch trial alertRules (paymentEvent wallet userId trial record transfer paymentId) payload
    else do
      reach trial.fails .findPreferenceAgain
      match trial.filterRulesAgain with
      | none => enqueuePaymentAlert trial payload
      | some filterRules => do
        reach trial.fails .shouldAlertAgain
        if p.shouldAlert filterRules (paymentContext transfer) then enqueuePaymentAlert trial payload
        else pure ()

/-- The realtime message, for a wallet that has a user. -/
def publishPayment (wallet : Wallet) (trial : Trial p) : Action (World p) String Unit :=
  if wallet.user.isSome then reach trial.fails .publish else pure ()

/-- What follows the commit of a new payment. -/
def dispatchPayment (wallet : Wallet) (trial : Trial p) (record : HorizonOperationRecord p.Operation)
    (transfer : Transfer) (alertRules : List p.Rule) (paymentId : String) : Action (World p) String Unit := do
  reach trial.fails .appendChecksum
  publishPayment wallet trial
  reach trial.fails .alertPayload
  dispatchAlert wallet trial record transfer alertRules paymentId

def afterCommit (recoverGap : Action (World p) String Unit) (wallet : Wallet) (trial : Trial p)
    (record : HorizonOperationRecord p.Operation) (transfer : Transfer) (alertRules : List p.Rule)
    (result : TransactionResult p) : Action (World p) String Unit := do
  reach trial.fails .commitAnswer
  if result.isNewPayment then
    dispatchPayment wallet trial record transfer alertRules result.payment.id
  if result.gap.hasGap then
    recoverGap

def LOCK_RETRY_COUNT : Nat := 3

/-- The handler, over what it does about a detected gap. -/
def processPaymentRecordWith (recoverGap : Action (World p) String Unit) (wallet : Wallet)
    (record : HorizonOperationRecord p.Operation) (skipGapCheck : Bool) (trial : Trial p) :
    Action (World p) String Unit := do
  let decoded ← decodeRecord trial record
  match decoded with
  | none => pure ()
  | some transfer =>
    if transfer.amount = "" ∨ getHorizonTxHash record = "" then pure ()
    else
      reach trial.fails .findExisting
      let world ← get
      let existing := world.payment.rows.any (·.txHash = getHorizonTxHash record)
      let decision ← decideAlert wallet trial record transfer existing
      let answer ← withWalletLock trial.lockAnswers LOCK_RETRY_COUNT
        (transaction (ingest wallet trial record transfer skipGapCheck decision.2))
      match answer with
      | none => throw ("Could not acquire wallet processing lock for " ++ wallet.id)
      | some result => afterCommit recoverGap wallet trial record transfer decision.1 result

/-- `ingestionCursor.update`, which throws when the wallet has no cursor. -/
def updateCursor (walletId : String) (update : IngestionCursorHealthUpdate p.Date) : Action (World p) String Unit := do
  let world ← get
  match world.ingestionCursor walletId with
  | none => throw "An operation failed because it depends on one or more records that were required but not found."
  | some cursor => modify fun world => world.setCursor walletId (cursor.withHealth update)

/-- A record handed to the handler, with how the call goes: the answers it gets and, should a gap be detected, the records of the
    account that Horizon can then list (newest first), each with how its own call goes. -/
structure Handling (p : Platform) where
  record : HorizonOperationRecord p.Operation
  trial : Trial p
  recent : List (HorizonOperationRecord p.Operation × Trial p)

/-- The newest records, at most `limit`. -/
def getRecentPayments (recent : List (HorizonOperationRecord p.Operation × Trial p)) (limit : Nat) :
    List (HorizonOperationRecord p.Operation × Trial p) := recent.take limit

/-- The records that a recovery processes again. -/
def Handling.window (handling : Handling p) : List (HorizonOperationRecord p.Operation × Trial p) :=
  getRecentPayments handling.recent BOUNDED_BACKFILL_LIMIT

/-- The bounded backfill. Its calls skip the gap check, so that none of them recovers in turn. -/
def recoverFromLedgerGap (wallet : Wallet) (trial : Trial p)
    (recent : List (HorizonOperationRecord p.Operation × Trial p)) : Action (World p) String Unit := do
  let ascending := (getRecentPayments recent BOUNDED_BACKFILL_LIMIT).reverse
  forEach (fun handled => processPaymentRecordWith (pure ()) wallet handled.1 true handled.2) ascending
  reach trial.fails .clearGap
  updateCursor wallet.id buildCursorGapClearedUpdate

def processPaymentRecord (wallet : Wallet) (skipGapCheck : Bool) (handling : Handling p) :
    Action (World p) String Unit :=
  processPaymentRecordWith (recoverFromLedgerGap wallet handling.trial handling.recent) wallet handling.record
    skipGapCheck handling.trial

def CURSOR_PAGE_SIZE : Nat := 50
def MAX_CATCHUP_PAGES : Nat := 20

/-- The places where a catch-up pass itself can fail. -/
inductive CatchUpStage where
  | findCursor
  | getLatestPagingToken
  | upsertCursor
  | findOutageCursor
  | updateOutage
  | updateSuccess
  deriving DecidableEq, Repr

/-- One page of payments after a cursor. -/
inductive Page (p : Platform) where
  | allNodesFailed (lastError : Option String)
  | records (handlings : List (Handling p))

/-- How the services answer during a catch-up pass. -/
structure CatchUp (p : Platform) where
  fails : CatchUpStage → Option String
  now : p.Date
  latestPagingToken : String
  pages : Nat → String → Page p

/-- `ensureCursor`: the persisted token, or that of the latest payment for a wallet seen for the first time. -/
def ensureCursor (wallet : Wallet) (fails : CatchUpStage → Option String) (latestPagingToken : String) :
    Action (World p) String String := do
  reach fails .findCursor
  let world ← get
  match world.ingestionCursor wallet.id with
  | some cursor => pure cursor.pagingToken
  | none => do
    reach fails .getLatestPagingToken
    reach fails .upsertCursor
    modify fun world => world.setCursor wallet.id (.create latestPagingToken)
    pure latestPagingToken

/-- The cursor that the pass goes on from after a page. -/
def lastToken (cursor : String) (handlings : List (Handling p)) : String :=
  handlings.foldl (fun cursor handling => (getHorizonPagingToken handling.record).getD cursor) cursor

def catchUpPages (wallet : Wallet) (pass : CatchUp p) : Nat → Nat → String → Action (World p) String Unit
  | 0, _, _ => pure ()
  | left + 1, page, cursor =>
    match pass.pages page cursor with
    | .allNodesFailed lastError => do
      reach pass.fails .findOutageCursor
      let world ← get
      let failures := ((world.ingestionCursor wallet.id).map (·.consecutiveFailures)).getD 0
      reach pass.fails .updateOutage
      updateCursor wallet.id
        (buildCursorOutageUpdate (orElse (lastError.getD "") "All Horizon nodes unreachable") failures)
    | .records [] => do
      reach pass.fails .updateSuccess
      updateCursor wallet.id (buildCursorSuccessUpdate pass.now)
    | .records handlings => do
      forEach (processPaymentRecord wallet false) handlings
      if handlings.length < CURSOR_PAGE_SIZE then pure ()
      else catchUpPages wallet pass left (page + 1) (lastToken cursor handlings)

def processWalletPayments (wallet : Wallet) (pass : CatchUp p) : Action (World p) String Unit :=
  if wallet.publicKey = "" ∨ p.isValidEd25519PublicKey wallet.publicKey = false then pure ()
  else do
    let cursor ← ensureCursor wallet pass.fails pass.latestPagingToken
    catchUpPages wallet pass MAX_CATCHUP_PAGES 0 cursor

end StellarAlerts.Watcher
