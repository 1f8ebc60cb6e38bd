import StellarAlerts.WatcherCommits

/-!
What a call of the watcher's handler adds. However it ends, it only adds payments,
outbox events and alert jobs, and all that it adds is of the records that it
processes: its own and those of a recovery (`adds_processPaymentRecord`).
-/
namespace StellarAlerts.Watcher
open Actions UniqueTables CursorRecovery Horizon WalletLocks

variable {p : Platform}

def Grows {α : Type} (kind : α → Prop) (before after : List α) : Prop :=
  ∃ more, after = before ++ more ∧ ∀ a ∈ more, kind a

section Grows
variable {α : Type} {kind : α → Prop} {before between after : List α}

theorem grows_refl (before : List α) : Grows kind before before := ⟨[],by simp,by simp⟩

theorem grows_trans (first : Grows kind before between) (second : Grows kind between after) : Grows kind before after := by
  obtain ⟨more,rfl,kinds⟩ := first
  obtain ⟨later,rfl,kinds'⟩ := second
  refine ⟨more ++ later,List.append_assoc ..,?_⟩
  intro a listed
  rcases List.mem_append.mp listed with old | new
  · exact kinds a old
  · exact kinds' a new

theorem grows_createMany {clash : α → α → Bool} (t : Table α clash) {rows : List α} (kinds : ∀ a ∈ rows, kind a) :
    Grows kind t.rows (t.createMany rows).2.rows := by
  obtain ⟨more,rowsAre,part,_⟩ := createMany_grows t rows
  exact ⟨more,rowsAre,fun a listed => kinds a (part.subset listed)⟩

theorem mem_of_grows (grows : Grows kind before after) {a : α} (listed : a ∈ before) : a ∈ after := by
  obtain ⟨more,rfl,_⟩ := grows
  exact List.mem_append_left more listed

theorem kind_of_grows (grows : Grows kind before after) {a : α} (listed : a ∈ after) : a ∈ before ∨ kind a := by
  obtain ⟨more,rfl,kinds⟩ := grows
  exact (List.mem_append.mp listed).imp_right (kinds a)

end Grows

/-- Only payments under such hashes and identifiers are added, and events and jobs under such hashes. -/
structure Adds (hashes cuids : String → Prop) (s s' : World p) : Prop where
  payment : Grows (fun row => hashes row.txHash ∧ cuids row.id) s.payment.rows s'.payment.rows
  outbox : Grows (fun e => hashes e.payload.txHash) s.outboxEvent.rows s'.outboxEvent.rows
  alertQueue : Grows (fun job => hashes job.txHash) s.alertQueue s'.alertQueue

section
variable {hashes cuids : String → Prop}

theorem adds_refl (s : World p) : Adds hashes cuids s s := ⟨grows_refl _,grows_refl _,grows_refl _⟩

theorem adds_trans {a b c : World p} (first : Adds hashes cuids a b) (second : Adds hashes cuids b c) : Adds hashes cuids a c :=
  ⟨grows_trans first.payment second.payment,grows_trans first.outbox second.outbox,
    grows_trans first.alertQueue second.alertQueue⟩

/-- However it ends, the action adds nothing else. -/
abbrev InAdds (hashes cuids : String → Prop) {α : Type} (x : Action (World p) String α) : Prop :=
  Keeps (Adds hashes cuids) (fun _ => True) x

theorem inAdds_pure {α : Type} (a : α) : InAdds hashes cuids (pure a : Action (World p) String α) := keeps_pure adds_refl a
theorem inAdds_get : InAdds hashes cuids (get : Action (World p) String (World p)) := keeps_get adds_refl

theorem inAdds_bind {α β : Type} {x : Action (World p) String α} {f : α → Action (World p) String β}
    (first : InAdds hashes cuids x) (second : ∀ a, InAdds hashes cuids (f a)) : InAdds hashes cuids (x >>= f) :=
  keeps_bind adds_trans first second

theorem inAdds_reach {Stage : Type} {fails : Stage → Option String} {stage : Stage} :
    InAdds hashes cuids (reach fails stage : Action (World p) String Unit) := by
  unfold reach
  split
  · exact keeps_throw adds_refl trivial
  · exact inAdds_pure ()

theorem inAdds_setCursor {walletId : String} {cursor : World p → IngestionCursor p.Date} :
    InAdds hashes cuids (modify fun world => world.setCursor walletId (cursor world) : Action (World p) String Unit) :=
  keeps_modify fun _ => ⟨grows_refl _,grows_refl _,grows_refl _⟩

variable {wallet : Wallet} {trial : Trial p} {record : HorizonOperationRecord p.Operation} {transfer : Transfer}

theorem inAdds_decodeRecord : InAdds hashes cuids (decodeRecord trial record) := by
  cases record with
  | payment base record => exact inAdds_pure _
  | create_account base record => exact inAdds_pure _
  | other base operation => exact inAdds_bind inAdds_reach fun _ => inAdds_pure _

theorem inAdds_decideAlert {existing : Bool} : InAdds hashes cuids (decideAlert wallet trial record transfer existing) := by
  intro s
  refine ends_mono ends_decideAlert fun outcome s' ends => ⟨?_,fun _ _ => trivial⟩
  rw [ends.1]
  exact adds_refl s

theorem inAdds_advanceCursor {skipGapCheck : Bool} {token : Option String} :
    InAdds hashes cuids (advanceCursor wallet trial skipGapCheck token) := by
  cases token with
  | none => exact inAdds_pure _
  | some token =>
    refine inAdds_bind inAdds_reach fun _ => inAdds_bind inAdds_get fun world => ?_
    dsimp only
    split
    · exact inAdds_bind (inAdds_bind inAdds_reach fun _ => inAdds_setCursor) fun _ => inAdds_pure _
    · exact inAdds_pure _

section Record
variable (hash : hashes (getHorizonTxHash record))
include hash

variable {paymentId : String}

theorem inAdds_recordInserted {shouldSendAlert : Bool} {count : Nat} :
    InAdds hashes cuids (recordInserted wallet trial record transfer shouldSendAlert count paymentId) := by
  unfold recordInserted
  split
  · refine inAdds_bind inAdds_reach fun _ => keeps_modify fun s => ⟨grows_refl _,grows_createMany _ ?_,grows_refl _⟩
    intro e listed
    obtain ⟨event,member,rfl⟩ := List.mem_map.mp listed
    cases shouldSendAlert <;> simp [paymentEvents] at member
    · rw [member]
      exact hash
    · rcases member with rfl | rfl <;> exact hash
  · exact inAdds_pure ()

theorem inAdds_enqueue :
    InAdds hashes cuids (enqueuePaymentAlert trial (alertPayload wallet trial record transfer paymentId)) := by
  refine inAdds_bind inAdds_reach fun _ => keeps_modify fun s => ⟨grows_refl _,grows_refl _,_,rfl,?_⟩
  intro job listed
  obtain rfl := List.mem_singleton.mp listed
  exact hash

variable {alertRules : List p.Rule}

theorem inAdds_dispatchAlert : InAdds hashes cuids (dispatchAlert wallet trial record transfer alertRules paymentId) := by
  unfold dispatchAlert
  dsimp only
  split
  · exact inAdds_enqueue hash
  split
  · refine inAdds_bind inAdds_reach fun _ => ?_
    dsimp only
    split
    · exact inAdds_pure ()
    refine inAdds_bind inAdds_reach fun _ => inAdds_bind inAdds_get fun world => ?_
    split
    · exact inAdds_pure ()
    refine inAdds_bind inAdds_reach fun _ => inAdds_bind (keeps_modify fun s => ?_) fun _ => inAdds_enqueue hash
    exact ⟨grows_refl _,grows_refl _,grows_refl _⟩
  refine inAdds_bind inAdds_reach fun _ => ?_
  split
  · exact inAdds_enqueue hash
  refine inAdds_bind inAdds_reach fun _ => ?_
  split
  · exact inAdds_enqueue hash
  · exact inAdds_pure ()

variable {recoverGap : Action (World p) String Unit}

theorem inAdds_afterCommit (recovers : InAdds hashes cuids recoverGap) {result : TransactionResult p} :
    InAdds hashes cuids (afterCommit recoverGap wallet trial record transfer alertRules result) := by
  have rest : InAdds hashes cuids (if result.gap.hasGap = true then recoverGap else pure ()) := by
    split
    · exact recovers
    · exact inAdds_pure ()
  have published : InAdds hashes cuids (publishPayment wallet trial) := by
    unfold publishPayment
    split
    · exact inAdds_reach
    · exact inAdds_pure ()
  refine inAdds_bind inAdds_reach fun _ => ?_
  dsimp only
  split
  · refine inAdds_bind ?_ fun _ => rest
    exact inAdds_bind inAdds_reach fun _ => inAdds_bind published fun _ => inAdds_bind inAdds_reach fun _ =>
      inAdds_dispatchAlert hash
  · exact rest

variable (cuid : cuids trial.cuid)
include cuid

theorem inAdds_ingest {skipGapCheck shouldSendAlert : Bool} :
    InAdds hashes cuids (ingest wallet trial record transfer skipGapCheck shouldSendAlert) := by
  refine inAdds_bind inAdds_reach fun _ => inAdds_bind ?_ fun count => inAdds_bind inAdds_reach fun _ =>
    inAdds_bind inAdds_get fun world => ?_
  · refine inAdds_bind inAdds_get fun world => inAdds_bind (keeps_modify fun s => ?_) fun _ => inAdds_pure _
    refine ⟨grows_createMany _ ?_,grows_refl _,grows_refl _⟩
    intro row listed
    obtain rfl := List.mem_singleton.mp listed
    exact ⟨hash,cuid⟩
  · split
    · exact keeps_throw adds_refl trivial
    · exact inAdds_bind (inAdds_recordInserted hash) fun _ => inAdds_bind inAdds_advanceCursor fun _ =>
        inAdds_bind inAdds_reach fun _ => inAdds_pure _

theorem inAdds_handler (recovers : InAdds hashes cuids recoverGap) {skipGapCheck : Bool} :
    InAdds hashes cuids (processPaymentRecordWith recoverGap wallet record skipGapCheck trial) := by
  refine inAdds_bind inAdds_decodeRecord fun decoded => ?_
  split
  · exact inAdds_pure ()
  split
  · exact inAdds_pure ()
  refine inAdds_bind inAdds_reach fun _ => inAdds_bind inAdds_get fun world => inAdds_bind inAdds_decideAlert fun decision =>
    inAdds_bind ?_ fun answer => ?_
  · unfold withWalletLock
    split
    · intro s
      exact ends_map.mpr (ends_mono (keeps_transaction adds_refl (inAdds_ingest hash cuid) s) fun outcome s' kept =>
        ⟨kept.1,fun _ _ => trivial⟩)
    · exact inAdds_pure none
  · split
    · exact keeps_throw adds_refl trivial
    · exact inAdds_afterCommit hash recovers

end Record

def Handling.calls (handling : Handling p) : List (HorizonOperationRecord p.Operation × Trial p) :=
  (handling.record,handling.trial) :: handling.window

theorem inAdds_updateCursor {walletId : String} {update : IngestionCursorHealthUpdate p.Date} :
    InAdds hashes cuids (updateCursor walletId update : Action (World p) String Unit) := by
  refine inAdds_bind inAdds_get fun world => ?_
  split
  · exact keeps_throw adds_refl trivial
  · exact inAdds_setCursor

theorem inAdds_recover {recent : List (HorizonOperationRecord p.Operation × Trial p)}
    (calls : ∀ call ∈ getRecentPayments recent BOUNDED_BACKFILL_LIMIT,
      hashes (getHorizonTxHash call.1) ∧ cuids call.2.cuid) : InAdds hashes cuids (recoverFromLedgerGap wallet trial recent) := by
  refine inAdds_bind ?_ fun _ => inAdds_bind inAdds_reach fun _ => inAdds_updateCursor
  refine keeps_forEach adds_refl adds_trans fun handled listed => ?_
  have again := calls handled (List.mem_reverse.mp listed)
  exact inAdds_handler again.1 again.2 (inAdds_pure ())

theorem adds_processPaymentRecord {handling : Handling p} {skipGapCheck : Bool}
    (calls : ∀ call ∈ handling.calls, hashes (getHorizonTxHash call.1) ∧ cuids call.2.cuid) :
    InAdds hashes cuids (processPaymentRecord wallet skipGapCheck handling) := by
  have own := calls _ (List.mem_cons_self ..)
  exact inAdds_handler own.1 own.2 (inAdds_recover fun call listed => calls call (List.mem_cons_of_mem _ listed))

end

end StellarAlerts.Watcher
