import StellarAlerts.Histories
import StellarAlerts.WatcherCommits

/-!
Atomicity and idempotence of the ingestion. Over every sequence of deliveries, a call
takes in its record as a whole or changes nothing, whatever stage of it fails, and the
records that a recovery processes again are taken in as wholes too.
-/
namespace StellarAlerts.Watcher
open Actions UniqueTables CursorRecovery Horizon Histories

variable {p : Platform}

/-- A record handed to the handler for a wallet. -/
structure Delivery (p : Platform) where
  wallet : Wallet
  skipGapCheck : Bool
  handling : Handling p

/-- One call of the handler. -/
def deliver (s : World p) (d : Delivery p) : Except String Unit × World p :=
  exec (processPaymentRecord d.wallet d.skipGapCheck d.handling) s

/-- Every outbox event has its key and its payment, every payment its event. -/
structure Consistent (s : World p) : Prop where
  keys : ∀ e ∈ s.outboxEvent.rows, e.idempotencyKey = outboxIdempotencyKey e.eventType.text e.aggregateId
  owned : ∀ e ∈ s.outboxEvent.rows, ∃ row ∈ s.payment.rows, row.id = e.aggregateId
  announced : ∀ row ∈ s.payment.rows, ∃ e ∈ s.outboxEvent.rows, e.eventType = .realtime ∧ e.aggregateId = row.id

theorem consistent_empty : Consistent (World.empty : World p) := by
  constructor <;> simp [World.empty]

theorem key_injective {a b : OutboxEventType} {x y : String}
    (same : outboxIdempotencyKey a.text x = outboxIdempotencyKey b.text y) : a = b ∧ x = y := by
  have texts := congrArg String.toList same
  simp only [outboxIdempotencyKey,String.toList_append] at texts
  cases a <;> cases b
  case alert.alert => exact ⟨rfl,(String.append_right_inj _).mp same⟩
  case realtime.realtime => exact ⟨rfl,(String.append_right_inj _).mp same⟩
  all_goals simp [OutboxEventType.text] at texts

theorem clash_iff {a b : Payment p} : Payment.clash a b = true ↔ a.id = b.id ∨ a.txHash = b.txHash := by
  simp [Payment.clash]

theorem mem_paymentEvents {shouldSendAlert : Bool} {payload : AlertPayload} {e : OutboxEvent}
    (member : e ∈ (paymentEvents shouldSendAlert payload).map (·.row)) :
    e.aggregateId = payload.paymentId ∧ e.idempotencyKey = outboxIdempotencyKey e.eventType.text e.aggregateId := by
  obtain ⟨event,listed,rfl⟩ := List.mem_map.mp member
  refine ⟨?_,rfl⟩
  cases shouldSendAlert <;> simp [paymentEvents] at listed
  · rw [listed]; rfl
  · rcases listed with rfl | rfl <;> rfl

theorem realtime_mem_paymentEvents (shouldSendAlert : Bool) (payload : AlertPayload) :
    ∃ e ∈ (paymentEvents shouldSendAlert payload).map (·.row), e.eventType = .realtime ∧ e.aggregateId = payload.paymentId :=
  ⟨_,List.mem_map_of_mem (List.mem_append_right _ (List.mem_singleton.mpr rfl)),rfl,rfl⟩

theorem paymentEvents_apart (shouldSendAlert : Bool) (payload : AlertPayload) :
    ((paymentEvents shouldSendAlert payload).map (·.row)).Pairwise (fun a b => OutboxEvent.clash a b = false) := by
  cases shouldSendAlert with
  | false => simp [paymentEvents]
  | true =>
    simp only [paymentEvents,↓reduceIte,List.singleton_append,List.map_cons,List.map_nil,List.pairwise_cons,
      List.mem_singleton,forall_eq,List.not_mem_nil,false_implies,implies_true,List.Pairwise.nil,and_true]
    rw [← Bool.not_eq_true]
    intro clashes
    have same := (key_injective (beq_iff_eq.mp clashes)).1
    cases same

variable {s : World p}

theorem events_free (consistent : Consistent s) {row : Payment p} (free : s.payment.holds row = false)
    (shouldSendAlert : Bool) (payload : AlertPayload) (ofRow : payload.paymentId = row.id) :
    ∀ e ∈ (paymentEvents shouldSendAlert payload).map (·.row), s.outboxEvent.holds e = false := by
  intro e member
  rw [← Bool.not_eq_true,holds_iff]
  rintro ⟨old,listed,clashes⟩
  obtain ⟨aggregate,key⟩ := mem_paymentEvents member
  have same : old.idempotencyKey = e.idempotencyKey := beq_iff_eq.mp clashes
  rw [consistent.keys old listed,key] at same
  obtain ⟨other,stored,id⟩ := consistent.owned old listed
  have held : s.payment.holds row = true := by
    refine holds_iff.mpr ⟨other,stored,clash_iff.mpr (Or.inl ?_)⟩
    rw [id,(key_injective same).2,aggregate,ofRow]
  rw [free] at held
  cases held

/-- The record is in the tables as a whole: its payment was inserted together with its events (the alert, if one is due, and the
    realtime message), or the transaction had its payment before; and the cursor has moved to its token, unless it was beyond. -/
structure Committed (wallet : Wallet) (trial : Trial p) (record : HorizonOperationRecord p.Operation) (s s' : World p) :
    Prop where
  payment : ∃ row ∈ s'.payment.rows, row.txHash = getHorizonTxHash record ∧
    ((row ∈ s.payment.rows ∧ s'.payment = s.payment ∧ s'.outboxEvent = s.outboxEvent) ∨
      (row.walletId = wallet.id ∧ s'.payment.rows = s.payment.rows ++ [row] ∧
        ∃ transfer decision, Prepared wallet trial record transfer decision s ∧
          s'.outboxEvent.rows = s.outboxEvent.rows ++
            (paymentEvents decision.2 (alertPayload wallet trial record transfer row.id)).map (·.row)))
  cursor : ∀ token, getHorizonPagingToken record = some token →
    s'.pagingToken wallet.id =
      if cursorCanAdvance (s.pagingToken wallet.id) token then some token else s.pagingToken wallet.id
  others : ∀ other, other ≠ wallet.id → s'.pagingToken other = s.pagingToken other

variable {s' : World p}

theorem ingested_committed {wallet : Wallet} {trial : Trial p} {record : HorizonOperationRecord p.Operation}
    {transfer : Transfer} {skipGapCheck : Bool} {decision : List p.Rule × Bool} {result : TransactionResult p}
    (consistent : Consistent s) (prepared : Prepared wallet trial record transfer decision s)
    (ingested : Ingested wallet trial record transfer skipGapCheck decision.2 s result s') :
    Committed wallet trial record s s' := by
  refine ⟨⟨result.payment,ingested.present,ingested.hash,?_⟩,?_,ingested.others⟩
  · rcases ingested.rows with ⟨_,rowIs,free,rows,events⟩ | ⟨_,payment,outbox⟩
    · right
      rw [rowIs]
      refine ⟨rfl,rows,transfer,decision,prepared,?_⟩
      rw [events]
      exact createMany_of_free (events_free consistent free decision.2 _ rfl) (paymentEvents_apart ..)
    · left
      exact ⟨payment ▸ ingested.present,payment,outbox⟩
  · intro token found
    have moved := ingested.token
    rwa [found] at moved

theorem consistent_noted (consistent : Consistent s) (noted : Noted s s') : Consistent s' := by
  constructor
  · rw [noted.outbox]; exact consistent.keys
  · rw [noted.outbox,noted.payment]; exact consistent.owned
  · rw [noted.outbox,noted.payment]; exact consistent.announced

theorem consistent_committed {wallet : Wallet} {trial : Trial p} {record : HorizonOperationRecord p.Operation}
    (consistent : Consistent s) (committed : Committed wallet trial record s s') : Consistent s' := by
  obtain ⟨row,_,_,⟨_,payment,outbox⟩ | ⟨_,rows,transfer,decision,_,events⟩⟩ := committed.payment
  · constructor
    · rw [outbox]; exact consistent.keys
    · rw [outbox,payment]; exact consistent.owned
    · rw [outbox,payment]; exact consistent.announced
  constructor
  · intro e member
    rw [events,List.mem_append] at member
    rcases member with old | new
    · exact consistent.keys e old
    · exact (mem_paymentEvents new).2
  · intro e member
    rw [events,List.mem_append] at member
    rcases member with old | new
    · obtain ⟨owner,stored,id⟩ := consistent.owned e old
      exact ⟨owner,by simp [rows,stored],id⟩
    · exact ⟨row,by simp [rows],(mem_paymentEvents new).1.symm⟩
  · intro other member
    rw [rows,List.mem_append,List.mem_singleton] at member
    rcases member with old | rfl
    · obtain ⟨e,stored,facts⟩ := consistent.announced other old
      exact ⟨e,by simp [events,stored],facts⟩
    · obtain ⟨e,stored,facts⟩ :=
        realtime_mem_paymentEvents decision.2 (alertPayload wallet trial record transfer other.id)
      exact ⟨e,events ▸ List.mem_append_right _ stored,facts⟩

/-- A record of the recovery is taken in as a whole, or nothing that counts changes. -/
def Again (d : Delivery p) (s s' : World p) : Prop :=
  (∃ handled ∈ d.handling.recent, Committed d.wallet handled.2 handled.1 s s') ∨ Noted s s'

theorem again_of_writes {d : Delivery p} (consistent : Consistent s)
    (writes : Writes (fun wallet trial record => wallet = d.wallet ∧ (record,trial) ∈ d.handling.recent) (fun _ => False) s s') :
    Consistent s' ∧ Relation.ReflTransGen (Again d) s s' := by
  induction writes with
  | refl => exact ⟨consistent,.refl⟩
  | tail _ last ih =>
    obtain ⟨before,chain⟩ := ih
    cases last with
    | ingested call prepared ingested =>
      obtain ⟨rfl,listed⟩ := call
      have committed := ingested_committed before prepared ingested
      exact ⟨consistent_committed before committed,chain.tail (Or.inl ⟨_,listed,committed⟩)⟩
    | seeded kind _ => exact kind.elim
    | noted noted => exact ⟨consistent_noted before noted,chain.tail (Or.inr noted)⟩

/-- A call changes nothing, or it takes in its record as a whole and then, if it recovers from a gap, others. -/
def AllOrNothing (d : Delivery p) (s s' : World p) : Prop :=
  s' = s ∨ ∃ mid, Committed d.wallet d.handling.trial d.handling.record s mid ∧
    Relation.ReflTransGen (Again d) mid s'

theorem deliver_all_or_nothing (consistent : Consistent s) (d : Delivery p) :
    Consistent (deliver s d).2 ∧ AllOrNothing d s (deliver s d).2 := by
  have call : Ends (processPaymentRecord d.wallet d.skipGapCheck d.handling) s
      (fun _ s' => Consistent s' ∧ AllOrNothing d s s') := by
    apply ends_processPaymentRecordWith
    · exact fun _ => ⟨consistent,Or.inl rfl⟩
    · exact fun _ _ => ⟨consistent,Or.inl rfl⟩
    · intro transfer decision result mid _ prepared ingested
      have committed := ingested_committed consistent prepared ingested
      have recovers : InWrites (fun wallet trial record => wallet = d.wallet ∧ (record,trial) ∈ d.handling.recent)
          (fun _ => False) (recoverFromLedgerGap d.wallet d.handling.trial d.handling.recent) :=
        inWrites_recover fun handled listed => ⟨rfl,listed⟩
      refine ends_mono (inWrites_afterCommit recovers mid) fun outcome s' later => ?_
      obtain ⟨after,chain⟩ := again_of_writes (consistent_committed consistent committed) later.1
      exact ⟨after,Or.inr ⟨mid,committed,chain⟩⟩
  exact call

/-- In every sequence of deliveries, to any wallets, in any order and with any stage of a call failing, every call takes in its record
    as a whole or changes nothing; and in the world it leads to, a transaction has at most one payment, a payment at most one event of
    each type, and payments and events go together. -/
theorem ingestion_atomic (deliveries : List (Delivery p)) :
    (∀ t ∈ history deliver World.empty deliveries, AllOrNothing t.input t.before t.after) ∧
    (∀ txHash, ((run deliver World.empty deliveries).payment.rows.filter (·.txHash = txHash)).length ≤ 1) ∧
    (∀ eventType paymentId, ((run deliver World.empty deliveries).outboxEvent.rows.filter
      (fun e => e.eventType = eventType ∧ e.aggregateId = paymentId)).length ≤ 1) ∧
    (∀ row ∈ (run deliver World.empty deliveries).payment.rows,
      ∃ e ∈ (run deliver World.empty deliveries).outboxEvent.rows,
        e.eventType = .realtime ∧ e.aggregateId = row.id) ∧
    (∀ e ∈ (run deliver World.empty deliveries).outboxEvent.rows,
      ∃ row ∈ (run deliver World.empty deliveries).payment.rows, row.id = e.aggregateId) := by
  have reached : ∀ inputs, Consistent (run deliver (World.empty : World p) inputs) :=
    run_inv (I := Consistent) (fun s d consistent => (deliver_all_or_nothing consistent d).1) consistent_empty
  refine ⟨?_,?_,?_,(reached deliveries).announced,(reached deliveries).owned⟩
  · intro t member
    obtain ⟨before,d,rfl⟩ := mem_history member
    exact (deliver_all_or_nothing (reached before) d).2
  · intro txHash
    apply filter_length_le_one
    intro a _ b _ first second
    rw [clash_iff,of_decide_eq_true first,of_decide_eq_true second]
    exact Or.inr rfl
  · intro eventType paymentId
    apply filter_length_le_one
    intro a listed b listed' first second
    obtain ⟨typeA,idA⟩ := of_decide_eq_true first
    obtain ⟨typeB,idB⟩ := of_decide_eq_true second
    rw [OutboxEvent.clash,(reached deliveries).keys a listed,(reached deliveries).keys b listed',typeA,idA,typeB,idB]
    exact beq_self_eq_true _

end StellarAlerts.Watcher
