import StellarAlerts.Watcher

/-!
What the watcher writes. A call of the handler changes the payments, the outbox and the
paging tokens only through its transaction, which does all three at once (`Ingested`) or
nothing; what follows the commit leaves them alone, except that the recovery from a gap
runs the handler again on other records.
-/
namespace StellarAlerts.Watcher
open Actions UniqueTables CursorRecovery Horizon WalletLocks

variable {p : Platform}

theorem ends_reach {State Stage : Type} {fails : Stage → Option String} {stage : Stage} {s : State}
    {post : Except String Unit → State → Prop} :
    Ends (reach fails stage) s post ↔
      match fails stage with
      | some error => post (.error error) s
      | none => post (.ok ()) s := by
  unfold reach
  cases fails stage <;> rfl

/-- The payments, the outbox and every wallet's paging token are as before. -/
structure Noted (s s' : World p) : Prop where
  payment : s'.payment = s.payment
  outbox : s'.outboxEvent = s.outboxEvent
  tokens : ∀ walletId, s'.pagingToken walletId = s.pagingToken walletId

theorem noted_refl (s : World p) : Noted s s := ⟨rfl,rfl,fun _ => rfl⟩

theorem noted_trans {a b c : World p} (first : Noted a b) (second : Noted b c) : Noted a c :=
  ⟨second.payment.trans first.payment,second.outbox.trans first.outbox,
    fun walletId => (second.tokens walletId).trans (first.tokens walletId)⟩

@[simp] theorem setCursor_token (s : World p) (walletId : String) (cursor : IngestionCursor p.Date) :
    (s.setCursor walletId cursor).pagingToken walletId = some cursor.pagingToken := by
  simp [World.setCursor,World.pagingToken]

theorem setCursor_other (s : World p) {walletId other : String} (cursor : IngestionCursor p.Date)
    (different : other ≠ walletId) : (s.setCursor walletId cursor).pagingToken other = s.pagingToken other := by
  simp [World.setCursor,World.pagingToken,different]

@[simp] theorem upsertCursor_token (s : World p) (walletId token : String)
    (update : IngestionCursorHealthUpdate p.Date) : (s.upsertCursor walletId token update).pagingToken walletId = some token := by
  rw [World.upsertCursor,setCursor_token]
  split <;> rfl

theorem upsertCursor_other (s : World p) {walletId other : String} (token : String)
    (update : IngestionCursorHealthUpdate p.Date) (different : other ≠ walletId) :
    (s.upsertCursor walletId token update).pagingToken other = s.pagingToken other := setCursor_other s _ different

/-- A stage of the call before its commit fails with the error. -/
def Stops (trial : Trial p) (error : String) : Prop :=
  ∃ stage : Stage, stage.afterCommit = false ∧ trial.fails stage = some error

/-- The part of the handler that decides about the alert only reads. -/
theorem ends_decideAlert {wallet : Wallet} {trial : Trial p} {record : HorizonOperationRecord p.Operation}
    {transfer : Transfer} {existing : Bool} {s : World p} :
    Ends (decideAlert wallet trial record transfer existing) s (fun outcome s' =>
      s' = s ∧
        match outcome with
        | .error error => Stops trial error
        | .ok _ => True) := by
  unfold decideAlert
  split
  next userId _ =>
    rw [ends_bind,ends_reach]
    cases rules : trial.fails .findAlertRules with
    | some error => exact ⟨rfl,_,rfl,rules⟩
    | none =>
      simp only
      split
      · rw [ends_bind,ends_reach]
        cases evaluated : trial.fails .evaluateAlertRules with
        | some error => exact ⟨rfl,_,rfl,evaluated⟩
        | none => exact ⟨rfl,trivial⟩
      · rw [ends_bind,ends_reach]
        cases preference : trial.fails .findPreference with
        | some error => exact ⟨rfl,_,rfl,preference⟩
        | none =>
          simp only
          split
          · exact ⟨rfl,trivial⟩
          · rw [ends_bind,ends_reach]
            cases filtered : trial.fails .shouldAlert with
            | some error => exact ⟨rfl,_,rfl,filtered⟩
            | none => exact ⟨rfl,trivial⟩
  next => exact ⟨rfl,trivial⟩

def decoded (trial : Trial p) : HorizonOperationRecord p.Operation → Option Transfer
  | .payment _ record =>
    some ⟨record.amount,(decodeHorizonAsset record).assetCode,(decodeHorizonAsset record).assetIssuer,
      record.from_,orNull record.memo⟩
  | .create_account _ record => some ⟨record.starting_balance,"XLM",none,record.funder,none⟩
  | .other _ operation => (p.parseSacTransferEvent operation).map (sacPayment trial.sacMetadata)

variable {trial : Trial p} {s : World p}

theorem ends_decodeRecord {record : HorizonOperationRecord p.Operation}
    {post : Except String (Option Transfer) → World p → Prop} (ok : post (.ok (decoded trial record)) s)
    (failed : ∀ error, trial.fails .parseSacTransferEvent = some error → post (.error error) s) :
    Ends (decodeRecord trial record) s post := by
  cases record with
  | payment base record => exact ok
  | create_account base record => exact ok
  | other base operation =>
    rw [decodeRecord,ends_bind,ends_reach]
    cases outcome : trial.fails .parseSacTransferEvent with
    | some error => exact failed error outcome
    | none => exact ok

/-- A transaction that went through: the payment is there, and either it was inserted with its outbox events or nothing of it changed;
    the cursor stands at the record's token where that is at least the token before. -/
structure Ingested (wallet : Wallet) (trial : Trial p) (record : HorizonOperationRecord p.Operation)
    (transfer : Transfer) (skipGapCheck shouldSendAlert : Bool) (s : World p) (result : TransactionResult p)
    (s' : World p) : Prop where
  present : result.payment ∈ s'.payment.rows
  hash : result.payment.txHash = getHorizonTxHash record
  rows :
    (result.isNewPayment = true ∧ result.payment = paymentRow wallet trial record transfer ∧
      s.payment.holds (paymentRow wallet trial record transfer) = false ∧
      s'.payment.rows = s.payment.rows ++ [paymentRow wallet trial record transfer] ∧
      s'.outboxEvent = (s.outboxEvent.createMany
        ((paymentEvents shouldSendAlert (alertPayload wallet trial record transfer trial.cuid)).map (·.row))).2) ∨
    (result.isNewPayment = false ∧ s'.payment = s.payment ∧ s'.outboxEvent = s.outboxEvent)
  token : s'.pagingToken wallet.id =
    match getHorizonPagingToken record with
    | none => s.pagingToken wallet.id
    | some token => if cursorCanAdvance (s.pagingToken wallet.id) token then some token else s.pagingToken wallet.id
  others : ∀ other, other ≠ wallet.id → s'.pagingToken other = s.pagingToken other
  gap : result.gap =
    match getHorizonPagingToken record with
    | none => noGap
    | some token => cursorGap skipGapCheck (s.pagingToken wallet.id) token

variable {skipGapCheck : Bool}

variable {result : TransactionResult p}

theorem Ingested.cursor {wallet : Wallet} {record : HorizonOperationRecord p.Operation} {transfer : Transfer}
    {shouldSendAlert : Bool} {s' : World p}
    (ingested : Ingested wallet trial record transfer skipGapCheck shouldSendAlert s result s') :
    s'.pagingToken wallet.id = s.pagingToken wallet.id ∨
      ∃ token, getHorizonPagingToken record = some token ∧ s'.pagingToken wallet.id = some token ∧
        cursorCanAdvance (s.pagingToken wallet.id) token = true := by
  have moved := ingested.token
  cases found : getHorizonPagingToken record with
  | none => exact .inl (by simpa [found] using moved)
  | some token =>
    rw [found] at moved
    by_cases ahead : cursorCanAdvance (s.pagingToken wallet.id) token = true
    · exact .inr ⟨token,rfl,by simpa [ahead] using moved,ahead⟩
    · exact .inl (by simpa [ahead] using moved)

theorem ends_advanceCursor {wallet : Wallet} {token : Option String} :
    Ends (advanceCursor wallet trial skipGapCheck token) s (fun outcome s' =>
      match outcome with
      | .error error => Stops trial error
      | .ok gap =>
        s'.payment = s.payment ∧ s'.outboxEvent = s.outboxEvent ∧
        (s'.pagingToken wallet.id =
          match token with
          | none => s.pagingToken wallet.id
          | some token => if cursorCanAdvance (s.pagingToken wallet.id) token then some token
            else s.pagingToken wallet.id) ∧
        (∀ other, other ≠ wallet.id → s'.pagingToken other = s.pagingToken other) ∧
        gap =
          match token with
          | none => noGap
          | some token => cursorGap skipGapCheck (s.pagingToken wallet.id) token) := by
  cases token with
  | none => exact ⟨rfl,rfl,rfl,fun _ _ => rfl,rfl⟩
  | some token =>
    rw [advanceCursor,ends_bind,ends_reach]
    cases found : trial.fails .findCursor with
    | some error => exact ⟨_,rfl,found⟩
    | none =>
      simp only [ends_bind,ends_get]
      by_cases ahead : cursorCanAdvance (s.pagingToken wallet.id) token = true
      · simp only [ahead,↓reduceIte,saveAdvance,ends_bind,ends_reach]
        cases written : trial.fails .upsertCursor with
        | some error => exact ⟨_,rfl,written⟩
        | none =>
          exact ⟨rfl,rfl,upsertCursor_token ..,fun other different => upsertCursor_other s _ _ different,rfl⟩
      · simp only [ahead]
        exact ⟨rfl,rfl,rfl,fun _ _ => rfl,rfl⟩

variable {paymentId : String}

theorem ends_recordInserted {wallet : Wallet} {record : HorizonOperationRecord p.Operation} {transfer : Transfer}
    {shouldSendAlert : Bool} {count : Nat} :
    Ends (recordInserted wallet trial record transfer shouldSendAlert count paymentId) s (fun outcome s' =>
      match outcome with
      | .error error => Stops trial error
      | .ok () => s' = { s with outboxEvent :=
          if 0 < count then
            (s.outboxEvent.createMany
              ((paymentEvents shouldSendAlert (alertPayload wallet trial record transfer paymentId)).map (·.row))).2
          else s.outboxEvent }) := by
  unfold recordInserted
  by_cases inserted : 0 < count
  · simp only [inserted,↓reduceIte,ends_bind,ends_reach]
    cases recorded : trial.fails .recordOutbox with
    | some error => exact ⟨_,rfl,recorded⟩
    | none => rfl
  · simp only [inserted,↓reduceIte]
    rfl

theorem paymentRow_hash (wallet : Wallet) (trial : Trial p) (record : HorizonOperationRecord p.Operation)
    (transfer : Transfer) : (paymentRow wallet trial record transfer).txHash = getHorizonTxHash record := rfl

theorem find_inserted {row : Payment p} (free : s.payment.holds row = false) {txHash : String} (hash : row.txHash = txHash) :
    (s.payment.rows ++ [row]).find? (·.txHash = txHash) = some row := by
  rw [List.find?_append]
  have none : s.payment.rows.find? (·.txHash = txHash) = none := by
    rw [List.find?_eq_none]
    intro other member same
    have held : s.payment.holds row = true :=
      holds_iff.mpr ⟨other,member,by simp [Payment.clash,hash,of_decide_eq_true same]⟩
    rw [free] at held
    cases held
  simp [none,hash]

theorem id_taken {wallet : Wallet} {record : HorizonOperationRecord p.Operation} {transfer : Transfer}
    (missing : (s.payment.createMany [paymentRow wallet trial record transfer]).2.rows.find? (·.txHash =
      getHorizonTxHash record) = none) :
    ∃ row ∈ s.payment.rows, row.id = trial.cuid := by
  rcases createMany_one s.payment (paymentRow wallet trial record transfer) with ⟨taken,unchanged⟩ | ⟨free,_,rows⟩
  · obtain ⟨row,member,clashes⟩ := holds_iff.mp taken
    rw [unchanged,List.find?_eq_none] at missing
    have other := missing row member
    simp only [Payment.clash,paymentRow,Bool.or_eq_true,beq_iff_eq,decide_eq_true_eq] at clashes other
    exact ⟨row,member,clashes.resolve_right other⟩
  · rw [rows,find_inserted free (paymentRow_hash ..)] at missing
    cases missing

/-- The body of the transaction: it goes through as `Ingested` says, or it stops at a stage, or the new identifier is taken. -/
theorem ends_ingest {wallet : Wallet} {record : HorizonOperationRecord p.Operation} {transfer : Transfer}
    {shouldSendAlert : Bool} :
    Ends (ingest wallet trial record transfer skipGapCheck shouldSendAlert) s (fun outcome s' =>
      match outcome with
      | .error error => Stops trial error ∨ ∃ row ∈ s.payment.rows, row.id = trial.cuid
      | .ok result => Ingested wallet trial record transfer skipGapCheck shouldSendAlert s result s') := by
  rw [ingest,ends_bind,ends_reach]
  cases created : trial.fails .createPayment with
  | some error => exact Or.inl ⟨_,rfl,created⟩
  | none =>
    simp only [createPayment,ends_bind,ends_get,ends_modify,ends_pure,ends_reach]
    cases sought : trial.fails .findPersisted with
    | some error => exact Or.inl ⟨_,rfl,sought⟩
    | none =>
      simp only
      cases found : List.find? (fun x => decide (x.txHash = getHorizonTxHash record))
          (s.payment.createMany [paymentRow wallet trial record transfer]).2.rows with
      | none => exact Or.inr (id_taken found)
      | some persisted =>
        refine ends_bind.mpr (ends_mono ends_recordInserted ?_)
        rintro (error | ⟨⟩) s₁ recorded
        · exact Or.inl recorded
        obtain rfl := recorded
        refine ends_bind.mpr (ends_mono ends_advanceCursor ?_)
        rintro (error | gap) s₂ advanced
        · exact Or.inl advanced
        obtain ⟨payment,outbox,token,others,gapIs⟩ := advanced
        simp only [ends_bind,ends_reach]
        cases committed : trial.fails .commit with
        | some error => exact Or.inl ⟨_,rfl,committed⟩
        | none =>
          have hash : persisted.txHash = getHorizonTxHash record := by simpa using List.find?_some found
          rw [ends_pure]
          refine ⟨?_,hash,?_,token,others,gapIs⟩
          · rw [payment]
            exact List.mem_of_find?_eq_some found
          · rcases createMany_one s.payment (paymentRow wallet trial record transfer) with
              ⟨_,unchanged⟩ | ⟨free,count,rows⟩
            · right
              rw [unchanged] at payment outbox ⊢
              exact ⟨rfl,payment,outbox⟩
            · left
              rw [rows,find_inserted free (paymentRow_hash ..)] at found
              injection found with same
              subst same
              rw [payment,rows,outbox,count]
              exact ⟨rfl,rfl,free,rfl,rfl⟩

/-- A stage of the call after its commit fails with the error. -/
def Late (trial : Trial p) (error : String) : Prop :=
  ∃ stage : Stage, stage.afterCommit = true ∧ trial.fails stage = some error

theorem keeps_late {stage : Stage} (late : stage.afterCommit = true) :
    Keeps Noted (Late trial) (reach trial.fails stage : Action (World p) String Unit) := by
  intro s
  rw [ends_reach]
  cases failed : trial.fails stage with
  | none => exact ⟨noted_refl s,fun _ same => by cases same⟩
  | some error => exact ⟨noted_refl s,fun _ same => by cases same; exact ⟨stage,late,failed⟩⟩

variable {payload : AlertPayload}

theorem keeps_enqueue : Keeps Noted (Late trial) (enqueuePaymentAlert trial payload) :=
  keeps_bind noted_trans (keeps_late rfl) fun _ => keeps_modify fun _ => ⟨rfl,rfl,fun _ => rfl⟩

variable {alertRules : List p.Rule}

theorem keeps_evaluateAndDispatch {event : NormalizedPaymentEvent p.Num} :
    Keeps Noted (Late trial) (evaluateAndDispatch trial alertRules event payload) := by
  refine keeps_bind noted_trans (keeps_late rfl) fun _ => ?_
  dsimp only
  split
  · exact keeps_pure noted_refl _
  refine keeps_bind noted_trans (keeps_late rfl) fun _ => keeps_bind noted_trans (keeps_get noted_refl) fun world => ?_
  split
  · exact keeps_pure noted_refl _
  refine keeps_bind noted_trans (keeps_late rfl) fun _ => keeps_bind noted_trans ?_ fun _ => keeps_enqueue
  exact keeps_modify fun _ => ⟨rfl,rfl,fun _ => rfl⟩

theorem keeps_dispatchAlert {wallet : Wallet} {record : HorizonOperationRecord p.Operation} {transfer : Transfer} :
    Keeps Noted (Late trial) (dispatchAlert wallet trial record transfer alertRules paymentId) := by
  unfold dispatchAlert
  dsimp only
  split
  · exact keeps_enqueue
  split
  · exact keeps_evaluateAndDispatch
  refine keeps_bind noted_trans (keeps_late rfl) fun _ => ?_
  split
  · exact keeps_enqueue
  refine keeps_bind noted_trans (keeps_late rfl) fun _ => ?_
  split
  · exact keeps_enqueue
  · exact keeps_pure noted_refl _

theorem keeps_dispatchPayment {wallet : Wallet} {record : HorizonOperationRecord p.Operation} {transfer : Transfer} :
    Keeps Noted (Late trial) (dispatchPayment wallet trial record transfer alertRules paymentId) := by
  refine keeps_bind noted_trans (keeps_late rfl) fun _ => keeps_bind noted_trans ?_ fun _ =>
    keeps_bind noted_trans (keeps_late rfl) fun _ => keeps_dispatchAlert
  unfold publishPayment
  split
  · exact keeps_late rfl
  · exact keeps_pure noted_refl _

/-- What a call with a usable transfer has before it takes the mutex. -/
structure Prepared (wallet : Wallet) (trial : Trial p) (record : HorizonOperationRecord p.Operation)
    (transfer : Transfer) (decision : List p.Rule × Bool) (s : World p) : Prop where
  decodedIs : decoded trial record = some transfer
  amount : transfer.amount ≠ ""
  hash : getHorizonTxHash record ≠ ""
  decisionIs : (exec (decideAlert wallet trial record transfer
    (s.payment.rows.any (·.txHash = getHorizonTxHash record))) s).1 = .ok decision

/-- The record has no transfer that the handler takes in. -/
def Skipped (trial : Trial p) (record : HorizonOperationRecord p.Operation) : Prop :=
  ∀ transfer, decoded trial record = some transfer → transfer.amount = "" ∨ getHorizonTxHash record = ""

/-- Why a call ends before its commit: a stage fails, the mutex is not acquired, or the new identifier is taken. -/
def Refused (trial : Trial p) (s : World p) (error : String) : Prop :=
  Stops trial error ∨ Mutex.acquireWalletLock trial.lockAnswers LOCK_RETRY_COUNT = false ∨
    ∃ row ∈ s.payment.rows, row.id = trial.cuid

theorem ends_withWalletLock {α : Type} {answers : Nat → SetAnswer} {retryCount : Nat} {fn : Action (World p) String α}
    {post : Except String (Option α) → World p → Prop} :
    Ends (withWalletLock answers retryCount fn) s post ↔
      if Mutex.acquireWalletLock answers retryCount then
        Ends fn s (fun outcome s' => post (outcome.map some) s')
      else post (.ok none) s := by
  unfold withWalletLock
  split
  · exact ends_map
  · exact ends_pure

variable {recoverGap : Action (World p) String Unit} {post : Except String Unit → World p → Prop}

/-- A call skips the record, or fails with nothing changed, or commits and goes on from the commit. -/
theorem ends_processPaymentRecordWith {wallet : Wallet} {record : HorizonOperationRecord p.Operation}
    (skipped : Skipped trial record → post (.ok ()) s) (refused : ∀ error, Refused trial s error → post (.error error) s)
    (committed : ∀ transfer decision result s', Mutex.acquireWalletLock trial.lockAnswers LOCK_RETRY_COUNT = true →
      Prepared wallet trial record transfer decision s →
      Ingested wallet trial record transfer skipGapCheck decision.2 s result s' →
      Ends (afterCommit recoverGap wallet trial record transfer decision.1 result) s' post) :
    Ends (processPaymentRecordWith recoverGap wallet record skipGapCheck trial) s post := by
  have stops : ∀ error, Stops trial error → post (.error error) s := fun error stops => refused error (Or.inl stops)
  rw [processPaymentRecordWith,ends_bind]
  apply ends_decodeRecord
  swap
  · exact fun error failed => stops error ⟨_,rfl,failed⟩
  cases decodedIs : decoded trial record with
  | none => exact skipped (fun transfer found => by simp [decodedIs] at found)
  | some transfer =>
    simp only
    split
    next empty =>
      exact skipped (fun other found => by
        rw [decodedIs] at found
        injection found with same
        exact same ▸ empty)
    next usable =>
      rw [ends_bind,ends_reach]
      cases sought : trial.fails .findExisting with
      | some error => exact stops error ⟨_,rfl,sought⟩
      | none =>
        simp only [ends_bind,ends_get]
        have decided := @ends_decideAlert p wallet trial record transfer
          (s.payment.rows.any (·.txHash = getHorizonTxHash record)) s
        rcases decisionIs : exec (decideAlert wallet trial record transfer
          (s.payment.rows.any (·.txHash = getHorizonTxHash record))) s with ⟨error | decision,s₁⟩
        · rw [ends_of_exec decisionIs] at decided ⊢
          obtain ⟨rfl,stopped⟩ := decided
          exact stops error stopped
        · rw [ends_of_exec decisionIs] at decided ⊢
          obtain ⟨rfl,_⟩ := decided
          have prepared : Prepared wallet trial record transfer decision s₁ :=
            ⟨decodedIs,fun empty => usable (Or.inl empty),fun empty => usable (Or.inr empty),by rw [decisionIs]⟩
          simp only [ends_withWalletLock]
          split
          next locked =>
            refine ends_transaction.mpr (ends_mono ends_ingest ?_)
            rintro (error | result) s' ingested
            · exact refused error (ingested.imp_right Or.inr)
            · exact committed transfer decision result s' locked prepared ingested
          next unlocked => exact refused _ (Or.inr (Or.inl (by simpa using unlocked)))

/-- From the commit on, a call fails at a late stage, or is done, or recovers from the gap. -/
theorem ends_afterCommit {wallet : Wallet} {record : HorizonOperationRecord p.Operation} {transfer : Transfer}
    (failed : ∀ error s', Late trial error → Noted s s' → post (.error error) s')
    (done : ∀ s', result.gap.hasGap = false → Noted s s' → post (.ok ()) s')
    (gap : ∀ s', result.gap.hasGap = true → Noted s s' → Ends recoverGap s' post) :
    Ends (afterCommit recoverGap wallet trial record transfer alertRules result) s post := by
  have rest : ∀ s', Noted s s' → Ends (if result.gap.hasGap = true then recoverGap else pure ()) s' post := by
    intro s' noted
    split
    next found => exact gap s' found noted
    next none => exact done s' (by simpa using none) noted
  rw [afterCommit,ends_bind,ends_reach]
  cases answered : trial.fails .commitAnswer with
  | some error => exact failed error s ⟨_,rfl,answered⟩ (noted_refl s)
  | none =>
    cases result.isNewPayment with
    | false => exact rest s (noted_refl s)
    | true =>
      refine ends_bind.mpr (ends_mono (keeps_dispatchPayment s) ?_)
      rintro (error | ⟨⟩) s' ⟨noted,late⟩
      · exact failed error s' (late error rfl) noted
      · exact rest s' noted

/-- The atomic changes of the watched tables: a transaction of the handler for an admitted call, the first cursor of a wallet at an
    admitted token, and changes of what does not count. -/
inductive Write (C : Wallet → Trial p → HorizonOperationRecord p.Operation → Prop) (T : String → Prop) :
    World p → World p → Prop
  | ingested {wallet trial record transfer skipGapCheck decision s result s'} (call : C wallet trial record)
      (prepared : Prepared wallet trial record transfer decision s)
      (ingested : Ingested wallet trial record transfer skipGapCheck decision.2 s result s') : Write C T s s'
  | seeded {s : World p} {walletId token : String} (kind : T token) (unseen : s.pagingToken walletId = none) :
      Write C T s (s.setCursor walletId (.create token))
  | noted {s s' : World p} (noted : Noted s s') : Write C T s s'

/-- Any number of atomic changes. -/
abbrev Writes (C : Wallet → Trial p → HorizonOperationRecord p.Operation → Prop) (T : String → Prop) :
    World p → World p → Prop := Relation.ReflTransGen (Write C T)

/-- An action is a sequence of atomic changes. -/
abbrev InWrites (C : Wallet → Trial p → HorizonOperationRecord p.Operation → Prop) (T : String → Prop) {α : Type}
    (x : Action (World p) String α) : Prop := Keeps (Writes C T) (fun _ => True) x

section Sequences
variable {C : Wallet → Trial p → HorizonOperationRecord p.Operation → Prop} {T : String → Prop}

theorem inWrites_bind {α β : Type} {x : Action (World p) String α} {f : α → Action (World p) String β}
    (first : InWrites C T x) (second : ∀ a, InWrites C T (f a)) : InWrites C T (x >>= f) :=
  keeps_bind Relation.ReflTransGen.trans first second

theorem inWrites_pure {α : Type} (a : α) : InWrites C T (pure a : Action (World p) String α) :=
  keeps_pure (fun _ => .refl) a
theorem inWrites_get : InWrites C T (get : Action (World p) String (World p)) := keeps_get fun _ => .refl

theorem inWrites_reach {Stage : Type} {fails : Stage → Option String} {stage : Stage} :
    InWrites C T (reach fails stage : Action (World p) String Unit) := by
  unfold reach
  split
  · exact keeps_throw (fun _ => .refl) trivial
  · exact inWrites_pure ()

variable {trial : Trial p}

variable {recoverGap : Action (World p) String Unit}

/-- From the commit on, a call notes what does not count and recovers. -/
theorem inWrites_afterCommit (recovers : InWrites C T recoverGap) {wallet : Wallet}
    {record : HorizonOperationRecord p.Operation} {transfer : Transfer} {alertRules : List p.Rule}
    {result : TransactionResult p} :
    InWrites C T (afterCommit recoverGap wallet trial record transfer alertRules result) := by
  intro s
  apply ends_afterCommit
  · exact fun _ s' _ noted => ⟨.single (.noted noted),fun _ _ => trivial⟩
  · exact fun s' _ noted => ⟨.single (.noted noted),fun _ _ => trivial⟩
  · intro s' _ noted
    exact ends_mono (recovers s') fun outcome s₁ later => ⟨.head (.noted noted) later.1,later.2⟩

theorem inWrites_handler (recovers : InWrites C T recoverGap) {wallet : Wallet} {record : HorizonOperationRecord p.Operation}
    {skipGapCheck : Bool} (call : C wallet trial record) :
    InWrites C T (processPaymentRecordWith recoverGap wallet record skipGapCheck trial) := by
  intro s
  apply ends_processPaymentRecordWith
  · exact fun _ => ⟨.refl,fun _ _ => trivial⟩
  · exact fun _ _ => ⟨.refl,fun _ _ => trivial⟩
  · intro transfer decision result s' _ prepared ingested
    exact ends_mono (inWrites_afterCommit recovers s') fun outcome s₁ later =>
      ⟨.head (.ingested call prepared ingested) later.1,later.2⟩

theorem ends_updateCursor {walletId : String} {update : IngestionCursorHealthUpdate p.Date} {s : World p} :
    Ends (updateCursor walletId update) s (fun _ s' => Noted s s') := by
  simp only [updateCursor,ends_bind,ends_get]
  cases found : s.ingestionCursor walletId with
  | none => exact noted_refl s
  | some cursor =>
    simp only [ends_modify]
    refine ⟨rfl,rfl,fun other => ?_⟩
    by_cases same : other = walletId
    · subst same
      simp [World.pagingToken,found,World.setCursor]
    · exact setCursor_other s _ same

theorem inWrites_updateCursor {walletId : String} {update : IngestionCursorHealthUpdate p.Date} :
    InWrites C T (updateCursor walletId update) :=
  fun _ => ends_mono ends_updateCursor fun _ _ noted => ⟨.single (.noted noted),fun _ _ => trivial⟩

theorem inWrites_recover {wallet : Wallet} {recent : List (HorizonOperationRecord p.Operation × Trial p)}
    (calls : ∀ handled ∈ recent, C wallet handled.2 handled.1) : InWrites C T (recoverFromLedgerGap wallet trial recent) := by
  refine inWrites_bind ?_ fun _ => inWrites_bind inWrites_reach fun _ => inWrites_updateCursor
  refine keeps_forEach (fun _ => .refl) Relation.ReflTransGen.trans fun handled listed => ?_
  exact inWrites_handler (inWrites_pure ()) (calls handled (List.mem_of_mem_take (List.mem_reverse.mp listed)))

/-- The calls that a handling can make: its own and those of its recovery. -/
def Handling.Admitted (C : Wallet → Trial p → HorizonOperationRecord p.Operation → Prop) (wallet : Wallet)
    (handling : Handling p) : Prop :=
  C wallet handling.trial handling.record ∧ ∀ handled ∈ handling.recent, C wallet handled.2 handled.1

/-- A call of the handler is a sequence of atomic changes. -/
theorem inWrites_processPaymentRecord {wallet : Wallet} {skipGapCheck : Bool} {handling : Handling p}
    (calls : handling.Admitted C wallet) : InWrites C T (processPaymentRecord wallet skipGapCheck handling) :=
  inWrites_handler (inWrites_recover calls.2) calls.1

theorem inWrites_ensureCursor {wallet : Wallet} {fails : CatchUpStage → Option String} {latest : String}
    (kind : T latest) : InWrites C T (ensureCursor wallet fails latest : Action (World p) String String) := by
  refine inWrites_bind inWrites_reach fun _ s => ?_
  simp only [ends_bind,ends_get]
  cases found : s.ingestionCursor wallet.id with
  | some cursor => exact ⟨.refl,fun _ _ => trivial⟩
  | none =>
    have unseen : s.pagingToken wallet.id = none := by simp [World.pagingToken,found]
    simp only [ends_bind,ends_reach]
    cases fails .getLatestPagingToken with
    | some error => exact ⟨.refl,fun _ _ => trivial⟩
    | none =>
      cases fails .upsertCursor with
      | some error => exact ⟨.refl,fun _ _ => trivial⟩
      | none => exact ⟨.single (.seeded kind unseen),fun _ _ => trivial⟩

/-- The calls and the first token that a catch-up pass can make. -/
def CatchUp.Admitted (C : Wallet → Trial p → HorizonOperationRecord p.Operation → Prop) (T : String → Prop)
    (wallet : Wallet) (pass : CatchUp p) : Prop :=
  T pass.latestPagingToken ∧ ∀ page cursor handlings, pass.pages page cursor = .records handlings →
    ∀ handling ∈ handlings, handling.Admitted C wallet

theorem inWrites_catchUpPages {wallet : Wallet} {pass : CatchUp p} (calls : pass.Admitted C T wallet)
    (left page : Nat) (cursor : String) : InWrites C T (catchUpPages wallet pass left page cursor) := by
  induction left generalizing page cursor with
  | zero => exact inWrites_pure ()
  | succ left ih =>
    rw [catchUpPages]
    split
    · exact inWrites_bind inWrites_reach fun _ => inWrites_bind inWrites_get fun _ =>
        inWrites_bind inWrites_reach fun _ => inWrites_updateCursor
    · exact inWrites_bind inWrites_reach fun _ => inWrites_updateCursor
    next handlings _ answered =>
      refine inWrites_bind ?_ fun _ => ?_
      · refine keeps_forEach (fun _ => .refl) Relation.ReflTransGen.trans fun handling listed => ?_
        exact inWrites_processPaymentRecord (calls.2 page cursor handlings answered handling listed)
      · split
        · exact inWrites_pure ()
        · exact ih _ _

theorem inWrites_processWalletPayments {wallet : Wallet} {pass : CatchUp p} (calls : pass.Admitted C T wallet) :
    InWrites C T (processWalletPayments wallet pass) := by
  unfold processWalletPayments
  split
  · exact inWrites_pure ()
  · exact inWrites_bind (inWrites_ensureCursor calls.1) fun _ => inWrites_catchUpPages calls _ _ _

end Sequences

end StellarAlerts.Watcher
