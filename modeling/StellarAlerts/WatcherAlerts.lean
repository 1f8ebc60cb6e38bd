import Mathlib.Data.List.Nodup
import StellarAlerts.FirstOfKey
import StellarAlerts.WatcherCursor

/-!
Which operations of a stream get a payment and an alert.
-/
namespace StellarAlerts.Watcher
open Actions UniqueTables CursorRecovery Horizon IntegerText Histories FirstOfKey WalletLocks

variable {p : Platform}

/-- No stage of the call fails and the mutex is acquired. -/
structure Trial.Calm (trial : Trial p) : Prop where
  answers : ∀ stage, trial.fails stage = none
  lock : Mutex.acquireWalletLock trial.lockAnswers LOCK_RETRY_COUNT = true

/-- A call of the handler: in the stream or in a recovery. -/
structure Processing (p : Platform) where
  wallet : Wallet
  record : HorizonOperationRecord p.Operation
  trial : Trial p

/-- The rules or filters of the wallet's user let an alert through. -/
def alertDue (wallet : Wallet) (trial : Trial p) (record : HorizonOperationRecord p.Operation) (transfer : Transfer) : Bool :=
  match wallet.user with
  | none => true
  | some userId =>
    if 0 < trial.alertRules.length then
      decide (0 < (evaluateAlertRules trial.alertRules (paymentEvent wallet userId trial record transfer "")).length)
    else
      match trial.filterRules with
      | none => true
      | some filterRules => p.shouldAlert filterRules (paymentContext transfer)

namespace Processing

def hash (c : Processing p) : String := getHorizonTxHash c.record

/-- The record has a transfer with an amount, and a transaction hash. -/
def usable (c : Processing p) : Bool :=
  match decoded c.trial c.record with
  | none => false
  | some transfer => transfer.amount ≠ "" && c.hash ≠ ""

def due (c : Processing p) : Bool :=
  match decoded c.trial c.record with
  | none => false
  | some transfer => alertDue c.wallet c.trial c.record transfer

/-- The row that the call inserts, if it inserts one. -/
def rows (c : Processing p) : List (Payment p) :=
  match decoded c.trial c.record with
  | none => []
  | some transfer => [paymentRow c.wallet c.trial c.record transfer]

/-- The events that it records with the row. -/
def events (c : Processing p) : List OutboxEvent :=
  match decoded c.trial c.record with
  | none => []
  | some transfer =>
    (paymentEvents (alertDue c.wallet c.trial c.record transfer)
      (alertPayload c.wallet c.trial c.record transfer c.trial.cuid)).map (·.row)

end Processing

/-- The abstract watcher: of the calls so far, those whose payment is kept. -/
abbrev taken (calls : List (Processing p)) : List (Processing p) := firsts Processing.usable Processing.hash calls

/-- The tables hold the rows and the events of these calls, and nothing else. -/
structure Holds (kept : List (Processing p)) (s : World p) : Prop where
  payments : s.payment.rows = kept.flatMap Processing.rows
  events : s.outboxEvent.rows = kept.flatMap Processing.events

theorem holds_empty : Holds [] (World.empty : World p) := ⟨rfl,rfl⟩

variable {s s' : World p}

theorem holds_noted {kept : List (Processing p)} (holds : Holds kept s) (noted : Noted s s') :
    Holds kept s' := ⟨noted.payment ▸ holds.payments,noted.outbox ▸ holds.events⟩

variable {c : Processing p}

theorem mem_rows {row : Payment p} (member : row ∈ c.rows) :
    row.id = c.trial.cuid ∧ row.txHash = c.hash ∧ row.walletId = c.wallet.id := by
  unfold Processing.rows at member
  split at member
  · cases member
  · rw [List.mem_singleton.mp member]
    exact ⟨rfl,rfl,rfl⟩

theorem mem_events {e : OutboxEvent} (member : e ∈ c.events) :
    e.aggregateId = c.trial.cuid ∧ e.idempotencyKey = outboxIdempotencyKey e.eventType.text e.aggregateId := by
  unfold Processing.events at member
  split at member
  · cases member
  · exact mem_paymentEvents member

theorem usable_decoded (usable : c.usable = true) :
    ∃ transfer, decoded c.trial c.record = some transfer ∧ transfer.amount ≠ "" ∧ c.hash ≠ "" := by
  unfold Processing.usable at usable
  split at usable
  · cases usable
  next transfer found => exact ⟨transfer,found,by simpa using usable⟩

theorem usable_rows (usable : c.usable = true) :
    (∃ row ∈ c.rows, row.id = c.trial.cuid) ∧
      ∃ e ∈ c.events, e.eventType = .realtime ∧ e.aggregateId = c.trial.cuid := by
  obtain ⟨transfer,found,_⟩ := usable_decoded usable
  simp only [Processing.rows,Processing.events,found]
  exact ⟨⟨_,List.mem_singleton.mpr rfl,rfl⟩,realtime_mem_paymentEvents _ (alertPayload _ _ _ _ c.trial.cuid)⟩

theorem alert_mem_events : (∃ e ∈ c.events, e.eventType = .alert) ↔ c.due = true := by
  unfold Processing.events Processing.due
  split
  · simp
  · next transfer _ =>
    cases alertDue c.wallet c.trial c.record transfer <;> simp [paymentEvents,OutboxEventInput.row]

theorem consistent_holds {kept : List (Processing p)} (holds : Holds kept s) (usable : ∀ c ∈ kept, c.usable = true) :
    Consistent s := by
  constructor
  · intro e member
    rw [holds.events,List.mem_flatMap] at member
    obtain ⟨c,_,own⟩ := member
    exact (mem_events own).2
  · intro e member
    rw [holds.events,List.mem_flatMap] at member
    obtain ⟨c,listed,own⟩ := member
    obtain ⟨row,has,id⟩ := (usable_rows (usable c listed)).1
    refine ⟨row,?_,id.trans (mem_events own).1.symm⟩
    rw [holds.payments]
    exact List.mem_flatMap.mpr ⟨c,listed,has⟩
  · intro row member
    rw [holds.payments,List.mem_flatMap] at member
    obtain ⟨c,listed,own⟩ := member
    obtain ⟨e,has,kind,aggregate⟩ := (usable_rows (usable c listed)).2
    refine ⟨e,?_,kind,aggregate.trans (mem_rows own).1.symm⟩
    rw [holds.events]
    exact List.mem_flatMap.mpr ⟨c,listed,has⟩

variable {decision : List p.Rule × Bool}

theorem decideAlert_calm {wallet : Wallet} {trial : Trial p} (calm : trial.Calm) {record : HorizonOperationRecord p.Operation}
    {transfer : Transfer} (decided : (exec (decideAlert wallet trial record transfer false) s).1 = .ok decision) :
    decision.2 = alertDue wallet trial record transfer := by
  have goes : Ends (decideAlert wallet trial record transfer false) s (fun outcome _ =>
      ∀ decision, outcome = .ok decision → decision.2 = alertDue wallet trial record transfer) := by
    unfold decideAlert alertDue
    cases wallet.user with
    | none =>
      rintro decision ⟨⟩
      rfl
    | some userId =>
      simp only [ends_bind,ends_reach,calm.answers]
      split
      · simp only [ends_bind,ends_reach,calm.answers]
        rintro decision ⟨⟩
        rfl
      · simp only [ends_bind,ends_reach,calm.answers]
        cases trial.filterRules with
        | none =>
          rintro decision ⟨⟩
          rfl
        | some filterRules =>
          simp only [ends_bind,ends_reach,calm.answers]
          rintro decision ⟨⟩
          rfl
  exact goes decision decided

/-- The call detects a gap between its wallet's cursor and its record. -/
def gapAhead (c : Processing p) (skipGapCheck : Bool) (s : World p) : Bool :=
  c.usable &&
    match getHorizonPagingToken c.record with
    | none => false
    | some token => (cursorGap skipGapCheck (s.pagingToken c.wallet.id) token).hasGap

theorem usable_prepared {transfer : Transfer} (prepared : Prepared c.wallet c.trial c.record transfer decision s) :
    c.usable = true := by
  simp [Processing.usable,prepared.decodedIs,prepared.amount,Processing.hash,prepared.hash]

variable {skipGapCheck : Bool}

variable {result : TransactionResult p}

/-- A transaction that goes through detects the gap ahead. -/
theorem gap_ingested {transfer : Transfer} (prepared : Prepared c.wallet c.trial c.record transfer decision s)
    (ingested : Ingested c.wallet c.trial c.record transfer skipGapCheck decision.2 s result s') :
    result.gap.hasGap = gapAhead c skipGapCheck s := by
  rw [ingested.gap,gapAhead,usable_prepared prepared,Bool.true_and]
  cases getHorizonPagingToken c.record <;> rfl

theorem holds_ingested {transfer : Transfer} {kept : List (Processing p)} (calm : c.trial.Calm) (holds : Holds kept s)
    (usable : ∀ other ∈ kept, other.usable = true) (prepared : Prepared c.wallet c.trial c.record transfer decision s)
    (ingested : Ingested c.wallet c.trial c.record transfer skipGapCheck decision.2 s result s') :
    Holds (keep Processing.usable Processing.hash kept c) s' := by
  have own := usable_prepared prepared
  rcases ingested.rows with ⟨_,_,free,rows,events⟩ | ⟨_,payment,outbox⟩
  · -- No row of the hash, so no kept call has it, and the decision is that of a new payment.
    have absent : ∀ row ∈ s.payment.rows, row.txHash ≠ getHorizonTxHash c.record := by
      intro row member same
      have held : s.payment.holds (paymentRow c.wallet c.trial c.record transfer) = true :=
        holds_iff.mpr ⟨row,member,clash_iff.mpr (Or.inr same)⟩
      rw [free] at held
      cases held
    have new : ∀ other ∈ kept, other.hash ≠ c.hash := by
      intro other listed same
      obtain ⟨row,has,_⟩ := (usable_rows (usable other listed)).1
      refine absent row ?_ ((mem_rows has).2.1.trans same)
      rw [holds.payments]
      exact List.mem_flatMap.mpr ⟨other,listed,has⟩
    have keptIs : keep Processing.usable Processing.hash kept c = kept ++ [c] := by
      unfold keep
      rw [if_pos]
      simpa [own] using new
    have decisionIs := prepared.decisionIs
    have existing : s.payment.rows.any (·.txHash = getHorizonTxHash c.record) = false := by
      rw [List.any_eq_false]
      intro row member
      simpa using absent row member
    rw [existing] at decisionIs
    rw [keptIs]
    constructor
    · rw [rows,holds.payments]
      simp [Processing.rows,prepared.decodedIs]
    · have recorded := createMany_of_free (events_free (consistent_holds holds usable) free decision.2
        (alertPayload c.wallet c.trial c.record transfer c.trial.cuid) rfl) (paymentEvents_apart ..)
      rw [events,recorded,holds.events,decideAlert_calm calm decisionIs]
      simp [Processing.events,prepared.decodedIs]
  · have found : ∃ other ∈ kept, other.hash = c.hash := by
      have present := ingested.present
      rw [payment,holds.payments,List.mem_flatMap] at present
      obtain ⟨other,listed,has⟩ := present
      exact ⟨other,listed,(mem_rows has).2.1.symm.trans ingested.hash⟩
    have keptIs : keep Processing.usable Processing.hash kept c = kept := by
      unfold keep
      rw [if_neg]
      obtain ⟨other,listed,same⟩ := found
      simp only [Bool.and_eq_true,List.all_eq_true,decide_eq_true_eq,not_and]
      exact fun _ all => all other listed same
    rw [keptIs]
    exact ⟨payment ▸ holds.payments,outbox ▸ holds.events⟩

/-- A call in which all goes through: its tables are those of the abstract watcher, and then it recovers if it detected a gap. -/
theorem ends_calm {recoverGap : Action (World p) String Unit} {kept : List (Processing p)}
    {post : Except String Unit → World p → Prop} (calm : c.trial.Calm) (holds : Holds kept s)
    (usable : ∀ other ∈ kept, other.usable = true) (fresh : ∀ other ∈ kept, other.trial.cuid ≠ c.trial.cuid)
    (done : ∀ s', gapAhead c skipGapCheck s = false → Holds (keep Processing.usable Processing.hash kept c) s' → post (.ok ()) s')
    (gap : ∀ s', gapAhead c skipGapCheck s = true → Holds (keep Processing.usable Processing.hash kept c) s' →
      Ends recoverGap s' post) :
    Ends (processPaymentRecordWith recoverGap c.wallet c.record skipGapCheck c.trial) s post := by
  apply ends_processPaymentRecordWith
  · intro skipped
    have unusable : c.usable = false := by
      rw [← Bool.not_eq_true]
      intro usable
      obtain ⟨transfer,found,amount,hash⟩ := usable_decoded usable
      exact (skipped transfer found).elim amount hash
    refine done s (by simp [gapAhead,unusable]) ?_
    rw [keep,if_neg (by simp [unusable])]
    exact holds
  · rintro error (⟨stage,_,fails⟩ | unlocked | ⟨row,member,id⟩)
    · rw [calm.answers] at fails
      cases fails
    · rw [calm.lock] at unlocked
      cases unlocked
    · rw [holds.payments,List.mem_flatMap] at member
      obtain ⟨other,listed,has⟩ := member
      exact absurd ((mem_rows has).1.symm.trans id) (fresh other listed)
  · intro transfer decision result s₁ _ prepared ingested
    have now := holds_ingested calm holds usable prepared ingested
    have gapIs := gap_ingested prepared ingested
    apply ends_afterCommit
    · rintro error s' ⟨stage,_,fails⟩
      rw [calm.answers] at fails
      cases fails
    · intro s' none noted
      exact done s' (gapIs ▸ none) (holds_noted now noted)
    · intro s' found noted
      exact gap s' (gapIs ▸ found) (holds_noted now noted)

/-- The calls have different identifiers to give. -/
def Fresh (calls : List (Processing p)) : Prop := (calls.map (·.trial.cuid)).Nodup

variable {done : List (Processing p)}

theorem fresh_last {rest : List (Processing p)} (fresh : Fresh (done ++ c :: rest)) :
    ∀ other ∈ taken done, other.trial.cuid ≠ c.trial.cuid := by
  intro other member same
  rw [Fresh,List.map_append,List.nodup_append] at fresh
  exact fresh.2.2 _ (List.mem_map_of_mem (mem_of_mem_firsts member).1) _ (by simp) same

theorem ends_backfill {wallet : Wallet} {records : List (HorizonOperationRecord p.Operation × Trial p)}
    (calm : ∀ handled ∈ records, handled.2.Calm)
    (fresh : Fresh (done ++ records.map fun handled => ⟨wallet,handled.1,handled.2⟩)) (holds : Holds (taken done) s) :
    Ends (forEach (fun handled => processPaymentRecordWith (pure ()) wallet handled.1 true handled.2) records) s
      (fun outcome s' => outcome = .ok () ∧
        Holds (taken (done ++ records.map fun handled => ⟨wallet,handled.1,handled.2⟩)) s') := by
  induction records generalizing done s with
  | nil =>
    rw [List.map_nil,List.append_nil]
    exact ⟨rfl,holds⟩
  | cons handled rest ih =>
    have next : ∀ s', Holds (keep Processing.usable Processing.hash (taken done) ⟨wallet,handled.1,handled.2⟩) s' →
        Ends (forEach (fun handled => processPaymentRecordWith (pure ()) wallet handled.1 true handled.2) rest) s'
          (fun outcome s'' => outcome = .ok () ∧
            Holds (taken (done ++ (handled :: rest).map fun handled => ⟨wallet,handled.1,handled.2⟩)) s'') := by
      intro s' now
      have later : done ++ (handled :: rest).map (fun handled => (⟨wallet,handled.1,handled.2⟩ : Processing p)) =
          (done ++ [⟨wallet,handled.1,handled.2⟩]) ++ rest.map fun handled => ⟨wallet,handled.1,handled.2⟩ := by simp
      rw [later] at fresh ⊢
      refine ih (fun other listed => calm other (List.mem_cons_of_mem _ listed)) fresh ?_
      rw [taken,firsts_concat]
      exact now
    refine ends_bind.mpr (ends_calm (c := ⟨wallet,handled.1,handled.2⟩) (calm handled (List.mem_cons_self ..)) holds
      (fun other member => (mem_of_mem_firsts member).2) (fresh_last fresh) ?_ ?_)
    · exact fun s' _ now => next s' now
    · exact fun s' _ now => next s' now

/-- The call of a delivery itself. -/
def Delivery.own (d : Delivery p) : Processing p := ⟨d.wallet,d.handling.record,d.handling.trial⟩

/-- The calls of its recovery, oldest record first. -/
def Delivery.again (d : Delivery p) : List (Processing p) :=
  d.handling.window.reverse.map fun handled => ⟨d.wallet,handled.1,handled.2⟩

/-- The calls that a delivery makes. -/
def handledBy (s : World p) (d : Delivery p) : List (Processing p) :=
  d.own :: if gapAhead d.own d.skipGapCheck s then d.again else []

/-- The calls of a stream of deliveries, in order. -/
def handled (s : World p) : List (Delivery p) → List (Processing p)
  | [] => []
  | d :: rest => handledBy s d ++ handled (deliver s d).2 rest

theorem holds_deliver {d : Delivery p} (calm : ∀ c ∈ handledBy s d, c.trial.Calm) (fresh : Fresh (done ++ handledBy s d))
    (holds : Holds (taken done) s) : Holds (taken (done ++ handledBy s d)) (deliver s d).2 := by
  have call : Ends (processPaymentRecord d.wallet d.skipGapCheck d.handling) s
      (fun _ s' => Holds (taken (done ++ handledBy s d)) s') := by
    unfold handledBy at calm fresh ⊢
    refine ends_calm (c := d.own) (calm d.own (List.mem_cons_self ..)) holds
      (fun other member => (mem_of_mem_firsts member).2) (fresh_last fresh) ?_ ?_
    · intro s' none now
      rw [none]
      simpa [taken,firsts_concat] using now
    · intro s' found now
      rw [found] at calm fresh ⊢
      simp only [↓reduceIte] at calm fresh ⊢
      have split : done ++ d.own :: d.again = (done ++ [d.own]) ++ d.again := by simp
      rw [split] at fresh ⊢
      refine ends_bind.mpr (ends_mono (ends_backfill ?_ fresh ?_) ?_)
      · intro handled listed
        exact calm ⟨d.wallet,handled.1,handled.2⟩ (List.mem_cons_of_mem _ (List.mem_map_of_mem listed))
      · rw [taken,firsts_concat]
        exact now
      · rintro outcome s'' ⟨rfl,after⟩
        refine ends_bind.mpr (ends_reach.mpr ?_)
        have answers : d.handling.trial.fails .clearGap = none := (calm d.own (List.mem_cons_self ..)).answers _
        rw [answers]
        exact ends_mono ends_updateCursor fun _ _ noted => holds_noted after noted
  exact call

theorem holds_run {deliveries : List (Delivery p)} (calm : ∀ c ∈ handled s deliveries, c.trial.Calm)
    (fresh : Fresh (done ++ handled s deliveries)) (holds : Holds (taken done) s) :
    Holds (taken (done ++ handled s deliveries)) (run deliver s deliveries) := by
  induction deliveries generalizing done s with
  | nil => simpa [handled] using holds
  | cons d rest ih =>
    rw [handled,← List.append_assoc] at fresh ⊢
    have first : Fresh (done ++ handledBy s d) := by
      rw [Fresh,List.map_append] at fresh
      exact (List.nodup_append.mp fresh).1
    refine ih (fun c member => calm c (List.mem_append_right _ member)) fresh ?_
    exact holds_deliver (fun c member => calm c (List.mem_append_left _ member)) first holds

/-- Where the value of a payment operation goes. -/
def destination : HorizonOperationRecord p.Operation → Option String
  | .payment _ record => some record.to_
  | .create_account _ record => some record.account
  | .other _ _ => none

/-- A payment operation into the wallet that passes the wallet's filters. -/
def Processing.Watched (c : Processing p) : Prop := destination c.record = some c.wallet.publicKey ∧ c.due = true

/-- The operation has a payment row and an alert event that a call for itself, on its own wallet, has made. Calls differ in their
    identifiers, so that no other operation has the same row. -/
def OwnAlert (calls : List (Processing p)) (s : World p) (c : Processing p) : Prop :=
  ∃ own ∈ calls, own.wallet = c.wallet ∧ own.record = c.record ∧
    (∃ row ∈ s.payment.rows, row.id = own.trial.cuid ∧ row.walletId = c.wallet.id ∧ row.txHash = c.hash) ∧
    ∃ e ∈ s.outboxEvent.rows, e.eventType = .alert ∧ e.aggregateId = own.trial.cuid

/-- The operation is usable, and the first usable call with its transaction hash
    is one for itself, on its own wallet, with an alert due. -/
def FirstOfHash (calls : List (Processing p)) (c : Processing p) : Prop :=
  c.usable = true ∧ ∀ first, calls.find? (fun b => b.usable && b.hash = c.hash) = some first →
    first.wallet = c.wallet ∧ first.record = c.record ∧ first.due = true

theorem eq_of_cuid {calls : List (Processing p)} (fresh : Fresh calls) {a b : Processing p} (first : a ∈ calls)
    (second : b ∈ calls) (same : a.trial.cuid = b.trial.cuid) : a = b :=
  List.inj_on_of_nodup_map fresh first second same

theorem usable_of_same {a : Processing p} {to_ : String} (operation : destination c.record = some to_)
    (same : a.record = c.record) (usable : a.usable = true) : c.usable = true := by
  have decodedSame : decoded a.trial a.record = decoded c.trial c.record := by
    rw [same]
    cases found : c.record with
    | payment base record => rfl
    | create_account base record => rfl
    | other base operation' =>
      rw [found] at operation
      cases operation
  unfold Processing.usable Processing.hash at usable ⊢
  rwa [decodedSame,same] at usable

theorem own_of_first {calls : List (Processing p)} (holds : Holds (taken calls) s) (member : c ∈ calls)
    (first : FirstOfHash calls c) : OwnAlert calls s c := by
  obtain ⟨usable,firstIs⟩ := first
  have some_ : (calls.find? (fun b => b.usable && b.hash = c.hash)).isSome := by
    rw [List.find?_isSome]
    exact ⟨c,member,by simp [usable]⟩
  obtain ⟨own,found⟩ := Option.isSome_iff_exists.mp some_
  obtain ⟨wallet,record,due⟩ := firstIs own found
  have keptOwn : own ∈ taken calls := find_mem_firsts found
  have kept := mem_of_mem_firsts keptOwn
  obtain ⟨row,has,id⟩ := (usable_rows kept.2).1
  obtain ⟨e,recorded,kind⟩ := alert_mem_events.mpr due
  refine ⟨own,kept.1,wallet,record,⟨row,?_,id,?_,?_⟩,e,?_,kind,(mem_events recorded).1⟩
  · rw [holds.payments]
    exact List.mem_flatMap.mpr ⟨own,keptOwn,has⟩
  · rw [(mem_rows has).2.2,wallet]
  · rw [(mem_rows has).2.1,Processing.hash,record,Processing.hash]
  · rw [holds.events]
    exact List.mem_flatMap.mpr ⟨own,keptOwn,recorded⟩

theorem first_of_own {calls : List (Processing p)} (fresh : Fresh calls) (holds : Holds (taken calls) s) {to_ : String}
    (operation : destination c.record = some to_) (alert : OwnAlert calls s c) : FirstOfHash calls c := by
  obtain ⟨own,member,wallet,record,⟨row,stored,id,_⟩,e,recorded,kind,aggregate⟩ := alert
  -- The row and the event are those of kept calls, which their identifiers show to be this one.
  have isOwn : ∀ other ∈ taken calls, other.trial.cuid = own.trial.cuid → other = own := fun other kept same =>
    eq_of_cuid fresh (mem_of_mem_firsts kept).1 member same
  rw [holds.payments,List.mem_flatMap] at stored
  obtain ⟨keeper,keptKeeper,has⟩ := stored
  have keeperIs := isOwn keeper keptKeeper ((mem_rows has).1.symm.trans id)
  subst keeperIs
  rw [holds.events,List.mem_flatMap] at recorded
  obtain ⟨recorder,keptRecorder,records⟩ := recorded
  have recorderIs := isOwn recorder keptRecorder ((mem_events records).1.symm.trans aggregate)
  subst recorderIs
  refine ⟨usable_of_same operation record (mem_of_mem_firsts keptKeeper).2,fun first found => ?_⟩
  have sameHash : first.hash = recorder.hash := by
    have listed := List.find?_some found
    simp only [Bool.and_eq_true,decide_eq_true_eq] at listed
    rw [listed.2,Processing.hash,Processing.hash,record]
  rw [eq_of_key (find_mem_firsts found) keptKeeper sameHash]
  exact ⟨wallet,record,alert_mem_events.mp ⟨e,records,kind⟩⟩

/-- Every payment operation of the stream into a watched wallet that passes the filters has a payment and an alert of its own. -/
def EachAlerted (deliveries : List (Delivery p)) : Prop :=
  ∀ c ∈ handled World.empty deliveries, c.Watched →
    OwnAlert (handled World.empty deliveries) (run deliver World.empty deliveries) c

/-- Each of these operations comes first under its transaction hash. -/
def EachFirst (deliveries : List (Delivery p)) : Prop :=
  ∀ c ∈ handled World.empty deliveries, c.Watched → FirstOfHash (handled World.empty deliveries) c

/-- In every stream whose calls go through, the watched operations have payments
    and alerts of their own exactly when each comes first under its hash. -/
theorem alerted_iff_first {deliveries : List (Delivery p)}
    (calm : ∀ c ∈ handled World.empty deliveries, c.trial.Calm) (fresh : Fresh (handled World.empty deliveries)) :
    EachAlerted deliveries ↔ EachFirst deliveries := by
  have holds : Holds (taken ([] ++ handled World.empty deliveries)) (run deliver World.empty deliveries) :=
    holds_run calm fresh holds_empty
  rw [List.nil_append] at holds
  constructor
  · intro alerted c member watched
    exact first_of_own fresh holds watched.1 (alerted c member watched)
  · intro first c member watched
    exact own_of_first holds member (first c member watched)

theorem calm_calm (cuid : String) : (calm cuid).Calm := ⟨fun _ => rfl,rfl⟩
def otherWallet : Wallet := ⟨"w2","GCEZWKCA5VLDNRLN3RPRJMRZOX3Z6G5CHCGSNFHEYVXM3XOJMDS674JZ",none⟩

/-- A delivery of a native payment in which all goes through. -/
def calmDelivery (wallet : Wallet) (pagingToken txHash cuid : String) : Delivery plain :=
  ⟨wallet,false,nativePayment pagingToken txHash "5" wallet.publicKey,calm cuid,[]⟩

theorem calm_handled {deliveries : List (Delivery plain)} (cuids : List String)
    (trials : (handled World.empty deliveries).map (·.trial) = cuids.map calm) :
    ∀ c ∈ handled World.empty deliveries, c.trial.Calm := by
  intro c member
  have found := List.mem_map_of_mem (f := fun c : Processing plain => c.trial) member
  rw [trials] at found
  obtain ⟨cuid,_,trialIs⟩ := List.mem_map.mp found
  rw [← trialIs]
  exact calm_calm cuid

/-- Two transactions, the first of them delivered twice. -/
def separate : List (Delivery plain) :=
  [calmDelivery sampleWallet "1000" "aa" "p1",calmDelivery sampleWallet "1001" "bb" "p2",
    calmDelivery sampleWallet "1000" "aa" "p3"]

theorem separate_transactions_alerted :
    EachAlerted separate ∧ (run deliver World.empty separate).payment.rows.length = 2 := by
  refine ⟨?_,by decide⟩
  have fresh : Fresh (handled World.empty separate) := by
    show (["p1","p2","p3"] : List String).Nodup
    decide
  refine (alerted_iff_first (calm_handled ["p1","p2","p3"] rfl) fresh).mpr ?_
  intro c member _
  have calls : handled World.empty separate = separate.map Delivery.own := rfl
  rw [calls] at member
  simp only [separate,List.map_cons,List.map_nil,List.mem_cons,List.not_mem_nil,or_false] at member
  rcases member with rfl | rfl | rfl
  · exact ⟨by decide,fun first found => by cases found; exact ⟨rfl,rfl,rfl⟩⟩
  · exact ⟨by decide,fun first found => by cases found; exact ⟨rfl,rfl,rfl⟩⟩
  · exact ⟨by decide,fun first found => by cases found; exact ⟨rfl,rfl,rfl⟩⟩

/-- Two payments of one transaction to one wallet. -/
def sharedHash : List (Delivery plain) :=
  [calmDelivery sampleWallet "1000" "aa" "p1",calmDelivery sampleWallet "1001" "aa" "p2"]

/-- One transaction that pays two watched wallets. -/
def sharedWallets : List (Delivery plain) :=
  [calmDelivery sampleWallet "1000" "aa" "p1",calmDelivery otherWallet "1001" "aa" "p2"]

/-- The second payment of the transaction, and the second wallet that it pays, are taken in without a row or an alert of their own. -/
theorem shared_hash_unalerted : ¬ EachAlerted sharedHash ∧ ¬ EachAlerted sharedWallets := by
  constructor
  · intro alerted
    have fresh : Fresh (handled World.empty sharedHash) := by
      show (["p1","p2"] : List String).Nodup
      decide
    have holds : Holds (taken (handled World.empty sharedHash)) (run deliver World.empty sharedHash) := ⟨rfl,rfl⟩
    have own := alerted (calmDelivery sampleWallet "1001" "aa" "p2").own (by simp [handled,sharedHash,handledBy]) ⟨rfl,rfl⟩
    have first := (first_of_own fresh holds rfl own).2 (calmDelivery sampleWallet "1000" "aa" "p1").own rfl
    exact absurd (congrArg (fun record => record.base.paging_token) first.2.1) (by decide)
  · intro alerted
    have fresh : Fresh (handled World.empty sharedWallets) := by
      show (["p1","p2"] : List String).Nodup
      decide
    have holds : Holds (taken (handled World.empty sharedWallets)) (run deliver World.empty sharedWallets) := ⟨rfl,rfl⟩
    have own := alerted (calmDelivery otherWallet "1001" "aa" "p2").own (by simp [handled,sharedWallets,handledBy]) ⟨rfl,rfl⟩
    have first := (first_of_own fresh holds rfl own).2 (calmDelivery sampleWallet "1000" "aa" "p1").own rfl
    exact absurd first.1 (by decide)

end StellarAlerts.Watcher
