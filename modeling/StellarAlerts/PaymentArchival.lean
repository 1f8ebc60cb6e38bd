import StellarAlerts.WatcherAdditions
import StellarAlerts.WatcherAlerts

/-!
The archival of old payments. The watcher looks only at the live payments: a record that
is delivered again after the archival of its payment is taken in as a new one. As long
as none is, every payment that was ever taken in is in exactly one of the two tables
(`payments_conserved`).
-/
namespace StellarAlerts.PaymentArchival
open Actions UniqueTables Horizon Histories
open Watcher

variable {p : Platform}

/-! ### The tables -/

structure PaymentArchive (p : Platform) where
  id : String
  walletId : String
  txHash : String
  fromAddress : String
  amount : p.Num
  asset : String
  assetIssuer : Option String
  memo : Option String
  receivedAt : p.Date
  createdAt : Nat

/-- The identifier and the transaction hash are unique. -/
def PaymentArchive.clash (a b : PaymentArchive p) : Bool := a.id == b.id || a.txHash == b.txHash

def archiveId (id : String) : String := "arch_" ++ id

/-- The tables of the watcher, the archive, and the payments that have a checksum, each of them once. -/
structure Store (p : Platform) where
  world : World p
  paymentArchive : Table (PaymentArchive p) PaymentArchive.clash
  paymentChecksum : Table String (· == ·)

def Store.empty : Store p := ⟨World.empty,.empty,.empty⟩

def Store.appendPaymentChecksum (s : Store p) (paymentId : String) : Store p :=
  if s.world.payment.rows.any (·.id = paymentId) then
    { s with paymentChecksum := (s.paymentChecksum.createMany [paymentId]).2 }
  else s

/-! ### The archival -/

inductive ArchiveStage where
  | findMany
  | createMany
  | deleteMany
  | commit
  | commitAnswer
deriving DecidableEq, Repr

structure ArchiveResult where
  archivedCount : Nat
  deletedCount : Nat
deriving DecidableEq, Repr

def ARCHIVE_BATCH_SIZE : Nat := 10000

/-- The date before which a payment is old, in milliseconds. -/
def cutoffDate (daysThreshold now : Nat) : Nat := now - daysThreshold * 24 * 60 * 60 * 1000

section
variable (createdAt : String → Nat)

/-- The copy of a payment in the archive; a payment's time of creation goes with its identifier. -/
def archived (row : Payment p) : PaymentArchive p :=
  { id := archiveId row.id
    walletId := row.walletId
    txHash := row.txHash
    fromAddress := row.fromAddress
    amount := row.amount
    asset := row.asset
    assetIssuer := row.assetIssuer
    memo := row.memo
    receivedAt := row.receivedAt
    createdAt := createdAt row.id }

def Store.oldPayments (s : Store p) (cutoff : Nat) : List (Payment p) :=
  (s.world.payment.rows.filter fun row => createdAt row.id < cutoff).take ARCHIVE_BATCH_SIZE

/-- `payment.deleteMany`, which a checksum of one of the payments restricts. -/
def deletePayments (ids : List String) : Action (Store p) String Nat := do
  let s ← get
  if ids.any (· ∈ s.paymentChecksum.rows) then throw "Foreign key constraint violated"
  else
    modify fun s => { s with world := { s.world with payment := s.world.payment.filter (·.id ∉ ids) } }
    pure (s.world.payment.rows.filter (·.id ∈ ids)).length

/-- The body of the transaction. -/
def archiveBatch (cutoff : Nat) (fails : ArchiveStage → Option String) : Action (Store p) String ArchiveResult := do
  reach fails .findMany
  let s ← get
  let oldPayments := s.oldPayments createdAt cutoff
  if oldPayments.length = 0 then pure ⟨0,0⟩
  else
    reach fails .createMany
    let result := s.paymentArchive.createMany (oldPayments.map (archived createdAt))
    modify fun s => { s with paymentArchive := result.2 }
    reach fails .deleteMany
    let count ← deletePayments (oldPayments.map (·.id))
    reach fails .commit
    pure ⟨result.1,count⟩

def archiveOldPayments (daysThreshold now : Nat) (fails : ArchiveStage → Option String) :
    Action (Store p) String ArchiveResult := do
  let result ← transaction (archiveBatch createdAt (cutoffDate daysThreshold now) fails)
  reach fails .commitAnswer
  pure result

/-! ### The system -/

/-- A record for the watcher, a checksum, or a run of the archival. The handler appends the
    checksum of a new payment as best it can, so that here it is an input of its own. -/
inductive Input (p : Platform) where
  | processPaymentRecord (delivery : Delivery p)
  | appendPaymentChecksum (paymentId : String)
  | archiveOldPayments (daysThreshold now : Nat) (fails : ArchiveStage → Option String)

def step (s : Store p) : Input p → Except String (Option ArchiveResult) × Store p
  | .processPaymentRecord delivery =>
    ((deliver s.world delivery).1.map fun _ => none,{ s with world := (deliver s.world delivery).2 })
  | .appendPaymentChecksum paymentId => (.ok none,s.appendPaymentChecksum paymentId)
  | .archiveOldPayments daysThreshold now fails =>
    (((exec (archiveOldPayments createdAt daysThreshold now fails) s).1.mapError ("Archival failed: " ++ ·)).map some,
      (exec (archiveOldPayments createdAt daysThreshold now fails) s).2)

end

/-! ### A run of the archival -/

def Unchecked (s : Store p) (batch : List (Payment p)) : Prop := ∀ row ∈ batch, row.id ∉ s.paymentChecksum.rows

section
variable {createdAt : String → Nat}

def Store.moved (createdAt : String → Nat) (s : Store p) (batch : List (Payment p)) : Store p :=
  { s with
    world := { s.world with payment := s.world.payment.filter (·.id ∉ batch.map (·.id)) }
    paymentArchive := (s.paymentArchive.createMany (batch.map (archived createdAt))).2 }

theorem any_checked {s : Store p} {batch : List (Payment p)} :
    (batch.map (·.id)).any (· ∈ s.paymentChecksum.rows) = true ↔ ¬ Unchecked s batch := by
  simp [Unchecked]

/-- Why the transaction fails: a stage of it does, or a payment of the batch has a checksum. -/
def Restricted (createdAt : String → Nat) (cutoff : Nat) (fails : ArchiveStage → Option String) (s : Store p) : Prop :=
  (∃ stage error, fails stage = some error) ∨ ¬ Unchecked s (s.oldPayments createdAt cutoff)

theorem ends_archiveBatch {cutoff : Nat} {fails : ArchiveStage → Option String} {s : Store p} :
    Ends (archiveBatch createdAt cutoff fails) s (fun outcome s' =>
      match outcome with
      | .error _ => Restricted createdAt cutoff fails s
      | .ok _ => Unchecked s (s.oldPayments createdAt cutoff) ∧
          ((s.oldPayments createdAt cutoff = [] ∧ s' = s) ∨ s' = s.moved createdAt (s.oldPayments createdAt cutoff))) := by
  rw [archiveBatch,ends_bind,ends_reach]
  cases found : fails .findMany with
  | some error => exact .inl ⟨_,_,found⟩
  | none =>
    simp only [ends_bind,ends_get]
    by_cases none_ : (s.oldPayments createdAt cutoff).length = 0
    · have empty := List.length_eq_zero_iff.mp none_
      rw [if_pos none_]
      refine ⟨?_,.inl ⟨empty,rfl⟩⟩
      rw [empty]
      exact fun _ listed => (by cases listed)
    · simp only [if_neg none_,ends_bind,ends_reach]
      cases created : fails .createMany with
      | some error => exact .inl ⟨_,_,created⟩
      | none =>
        simp only [ends_modify]
        cases deleted : fails .deleteMany with
        | some error => exact .inl ⟨_,_,deleted⟩
        | none =>
          simp only [deletePayments,ends_bind,ends_get]
          by_cases checked : ((s.oldPayments createdAt cutoff).map (·.id)).any (· ∈ s.paymentChecksum.rows) = true
          · rw [if_pos checked]
            exact .inr (any_checked.mp checked)
          · simp only [if_neg checked,ends_bind,ends_modify,ends_pure]
            cases committed : fails .commit with
            | some error => exact .inl ⟨_,_,committed⟩
            | none => exact ⟨not_not.mp (mt any_checked.mpr checked),.inr rfl⟩

theorem archive_cases (createdAt : String → Nat) (s : Store p) (daysThreshold now : Nat) (fails : ArchiveStage → Option String) :
    (exec (archiveOldPayments createdAt daysThreshold now fails) s).2 = s ∨
      (Unchecked s (s.oldPayments createdAt (cutoffDate daysThreshold now)) ∧
        (exec (archiveOldPayments createdAt daysThreshold now fails) s).2 =
          s.moved createdAt (s.oldPayments createdAt (cutoffDate daysThreshold now))) := by
  have ends : Ends (archiveOldPayments createdAt daysThreshold now fails) s (fun _ s' => s' = s ∨
      (Unchecked s (s.oldPayments createdAt (cutoffDate daysThreshold now)) ∧
        s' = s.moved createdAt (s.oldPayments createdAt (cutoffDate daysThreshold now)))) := by
    refine ends_bind.mpr (ends_transaction.mpr (ends_mono ends_archiveBatch ?_))
    rintro (error | result) s' went
    · exact .inl rfl
    · simp only [ends_bind,ends_reach]
      have moved : s' = s ∨ (Unchecked s (s.oldPayments createdAt (cutoffDate daysThreshold now)) ∧
          s' = s.moved createdAt (s.oldPayments createdAt (cutoffDate daysThreshold now))) := by
        rcases went with ⟨unchecked,⟨_,same⟩ | moved⟩
        · exact .inl same
        · exact .inr ⟨unchecked,moved⟩
      cases fails .commitAnswer <;> exact moved
  exact ends

theorem archive_fails_iff (s : Store p) (daysThreshold now : Nat) :
    (∃ error, (exec (archiveOldPayments createdAt daysThreshold now fun _ => none) s).1 = .error error) ↔
      ¬ Unchecked s (s.oldPayments createdAt (cutoffDate daysThreshold now)) := by
  have ends : Ends (archiveOldPayments createdAt daysThreshold now fun _ => none) s (fun outcome _ =>
      (∃ error, outcome = .error error) ↔ ¬ Unchecked s (s.oldPayments createdAt (cutoffDate daysThreshold now))) := by
    refine ends_bind.mpr (ends_transaction.mpr (ends_mono ends_archiveBatch ?_))
    rintro (error | result) s' went
    · rcases went with ⟨stage,failed,fails⟩ | checked
      · cases fails
      · exact ⟨fun _ => checked,fun _ => ⟨error,rfl⟩⟩
    · refine ⟨?_,fun checked => absurd went.1 checked⟩
      rintro ⟨error,failed⟩
      cases failed
  exact ends

end

/-! ### Every payment in one of the tables -/

/-- No payment stands in both tables, nor do their identifiers meet. -/
def Apart (s : Store p) : Prop :=
  ∀ row ∈ s.world.payment.rows, ∀ copy ∈ s.paymentArchive.rows, copy.txHash ≠ row.txHash ∧ copy.id ≠ archiveId row.id

/-- No record of the step is that of an archived payment, and no identifier that is handed out meanwhile was that of one. -/
def Sound (s : Store p) : Input p → Prop
  | .processPaymentRecord delivery => ∀ call ∈ delivery.handling.calls, ∀ copy ∈ s.paymentArchive.rows,
      copy.txHash ≠ getHorizonTxHash call.1 ∧ copy.id ≠ archiveId call.2.cuid
  | _ => True

/-- What was in the tables still is, or was moved. -/
structure Kept (createdAt : String → Nat) (s s' : Store p) : Prop where
  payment : ∀ row ∈ s.world.payment.rows, row ∈ s'.world.payment.rows ∨ archived createdAt row ∈ s'.paymentArchive.rows
  archive : ∀ copy ∈ s.paymentArchive.rows, copy ∈ s'.paymentArchive.rows

section
variable {createdAt : String → Nat}

theorem kept_refl (s : Store p) : Kept createdAt s s := ⟨fun _ there => .inl there,fun _ there => there⟩
theorem archiveId_injective {a b : String} (same : archiveId a = archiveId b) : a = b := (String.append_right_inj _).mp same

variable {s : Store p}

/-- Two payments of the table are one, or they differ in identifier and transaction. -/
theorem payments_apart {a b : Payment p} (inA : a ∈ s.world.payment.rows) (inB : b ∈ s.world.payment.rows) (different : a ≠ b) :
    a.id ≠ b.id ∧ a.txHash ≠ b.txHash := by
  have symmetric : ∀ a b : Payment p, Payment.clash a b = Payment.clash b a := by
    intro a b
    rw [Bool.eq_iff_iff,Watcher.clash_iff,Watcher.clash_iff]
    constructor
    · exact fun clashes => clashes.imp Eq.symm Eq.symm
    · exact fun clashes => clashes.imp Eq.symm Eq.symm
  refine ⟨fun same => ?_,fun same => ?_⟩
  · exact different (eq_of_clash _ symmetric inA inB (Watcher.clash_iff.mpr (.inl same)))
  · exact different (eq_of_clash _ symmetric inA inB (Watcher.clash_iff.mpr (.inr same)))

theorem mem_oldPayments {cutoff : Nat} {row : Payment p} (listed : row ∈ s.oldPayments createdAt cutoff) :
    row ∈ s.world.payment.rows := List.mem_of_mem_filter (List.mem_of_mem_take listed)

theorem oldPayments_pairwise (s : Store p) (cutoff : Nat) :
    (s.oldPayments createdAt cutoff).Pairwise fun a b => Payment.clash a b = false :=
  (s.world.payment.unique.filter _).sublist (List.take_sublist ..)

theorem moved_rows (createdAt : String → Nat) (apart : Apart s) (cutoff : Nat) :
    (s.moved createdAt (s.oldPayments createdAt cutoff)).paymentArchive.rows =
      s.paymentArchive.rows ++ (s.oldPayments createdAt cutoff).map (archived createdAt) := by
  refine createMany_of_free ?_ ?_
  · intro copy listed
    obtain ⟨row,old,rfl⟩ := List.mem_map.mp listed
    rw [← Bool.not_eq_true,holds_iff]
    rintro ⟨other,there,clashes⟩
    obtain ⟨hashes,ids⟩ := apart row (mem_oldPayments old) other there
    simp only [PaymentArchive.clash,Bool.or_eq_true,beq_iff_eq] at clashes
    exact clashes.elim ids hashes
  · rw [List.pairwise_map]
    refine (oldPayments_pairwise s cutoff).imp fun {a b} free => ?_
    rw [← Bool.not_eq_true] at free ⊢
    intro clashes
    simp only [PaymentArchive.clash,archived,Bool.or_eq_true,beq_iff_eq] at clashes
    exact free (Watcher.clash_iff.mpr (clashes.imp_left archiveId_injective))

theorem archive_step (apart : Apart s) (cutoff : Nat) :
    Kept createdAt s (s.moved createdAt (s.oldPayments createdAt cutoff)) ∧
      Apart (s.moved createdAt (s.oldPayments createdAt cutoff)) := by
  have rows := moved_rows createdAt apart cutoff
  refine ⟨⟨?_,?_⟩,?_⟩
  · intro row there
    by_cases old : row.id ∈ (s.oldPayments createdAt cutoff).map (·.id)
    · right
      obtain ⟨other,listed,same⟩ := List.mem_map.mp old
      have one : other = row := by
        by_contra different
        exact (payments_apart (mem_oldPayments listed) there different).1 same
      rw [rows]
      exact List.mem_append_right _ (List.mem_map_of_mem (one ▸ listed))
    · left
      exact List.mem_filter.mpr ⟨there,by simpa using old⟩
  · intro copy there
    rw [rows]
    exact List.mem_append_left _ there
  · intro row there copy listed
    obtain ⟨live,kept⟩ := List.mem_filter.mp there
    rw [rows,List.mem_append] at listed
    rcases listed with before | new
    · exact apart row live copy before
    · obtain ⟨other,old,rfl⟩ := List.mem_map.mp new
      have different : other ≠ row := by
        rintro rfl
        exact of_decide_eq_true kept (List.mem_map_of_mem old)
      obtain ⟨ids,hashes⟩ := payments_apart (mem_oldPayments old) live different
      exact ⟨hashes,fun same => ids (archiveId_injective same)⟩

/-- Nothing under the hash has come to the live payments, the outbox and the alert jobs. -/
structure NothingNew (txHash : String) (s s' : Store p) : Prop where
  payment : ∀ row ∈ s'.world.payment.rows, row.txHash ≠ txHash
  outbox : s'.world.outboxEvent.rows.filter (·.payload.txHash = txHash) =
    s.world.outboxEvent.rows.filter (·.payload.txHash = txHash)
  alertQueue : s'.world.alertQueue.filter (·.txHash = txHash) = s.world.alertQueue.filter (·.txHash = txHash)

theorem grows_filter {α : Type} {kind : α → Prop} {before after : List α} (grows : Grows kind before after) {test : α → Bool}
    (none : ∀ a, kind a → test a = false) : after.filter test = before.filter test := by
  obtain ⟨more,rfl,kinds⟩ := grows
  have empty : more.filter test = [] := by
    refine List.filter_eq_nil_iff.mpr fun a listed passes => ?_
    rw [none a (kinds a listed)] at passes
    cases passes
  rw [List.filter_append,empty,List.append_nil]

variable {delivery : Delivery p}

theorem deliver_adds (sound : Sound s (.processPaymentRecord delivery)) :
    Adds (fun hash => ∀ copy ∈ s.paymentArchive.rows, copy.txHash ≠ hash)
      (fun cuid => ∀ copy ∈ s.paymentArchive.rows, copy.id ≠ archiveId cuid) s.world (deliver s.world delivery).2 :=
  (adds_processPaymentRecord (fun call listed =>
    ⟨fun copy there => (sound call listed copy there).1,fun copy there => (sound call listed copy there).2⟩) s.world).1

theorem deliver_step (createdAt : String → Nat) (apart : Apart s) (sound : Sound s (.processPaymentRecord delivery)) :
    Kept createdAt s (step createdAt s (.processPaymentRecord delivery)).2 ∧
      Apart (step createdAt s (.processPaymentRecord delivery)).2 ∧
      ∀ copy ∈ s.paymentArchive.rows, NothingNew copy.txHash s (step createdAt s (.processPaymentRecord delivery)).2 := by
  have adds := deliver_adds sound
  have apart' : Apart (step createdAt s (.processPaymentRecord delivery)).2 := by
    intro row there copy listed
    rcases kind_of_grows adds.payment there with old | ⟨hash,cuid⟩
    · exact apart row old copy listed
    · exact ⟨hash copy listed,cuid copy listed⟩
  refine ⟨⟨fun row there => .inl (mem_of_grows adds.payment there),fun _ there => there⟩,apart',?_⟩
  intro copy listed
  refine ⟨fun row there => Ne.symm (apart' row there copy listed).1,?_,?_⟩
  · refine grows_filter adds.outbox fun e new => decide_eq_false fun same => new copy listed same.symm
  · refine grows_filter adds.alertQueue fun job new => decide_eq_false fun same => new copy listed same.symm

theorem sound_step (createdAt : String → Nat) (apart : Apart s) {input : Input p} (sound : Sound s input) :
    Kept createdAt s (step createdAt s input).2 ∧ Apart (step createdAt s input).2 := by
  cases input with
  | processPaymentRecord delivery => exact ⟨(deliver_step createdAt apart sound).1,(deliver_step createdAt apart sound).2.1⟩
  | appendPaymentChecksum paymentId =>
    rw [step,Store.appendPaymentChecksum]
    split
    · exact ⟨⟨fun _ there => .inl there,fun _ there => there⟩,apart⟩
    · exact ⟨kept_refl s,apart⟩
  | archiveOldPayments daysThreshold now fails =>
    rw [step]
    rcases archive_cases createdAt s daysThreshold now fails with same | ⟨_,moved⟩
    · rw [same]
      exact ⟨kept_refl s,apart⟩
    · rw [moved]
      exact archive_step apart _

end

/-! ### Runs -/

/-- The foreign key of the checksums. -/
def Referenced (s : Store p) : Prop := ∀ paymentId ∈ s.paymentChecksum.rows, ∃ row ∈ s.world.payment.rows, row.id = paymentId

/-- The payment stands in exactly one of the two tables. -/
def Home (createdAt : String → Nat) (s : Store p) (row : Payment p) : Prop :=
  (row ∈ s.world.payment.rows ∧ ∀ copy ∈ s.paymentArchive.rows, copy.txHash ≠ row.txHash) ∨
    (archived createdAt row ∈ s.paymentArchive.rows ∧ ∀ other ∈ s.world.payment.rows, other.txHash ≠ row.txHash)

/-- All of the batch is in the archive and none of it among the payments; the rest is as before. -/
structure MovedWhole (createdAt : String → Nat) (s s' : Store p) (batch : List (Payment p)) : Prop where
  archive : s'.paymentArchive.rows = s.paymentArchive.rows ++ batch.map (archived createdAt)
  payment : s'.world.payment.rows = s.world.payment.rows.filter (·.id ∉ batch.map (·.id))

section
variable {createdAt : String → Nat}

theorem referenced_step {s : Store p} (referenced : Referenced s) (input : Input p) :
    Referenced (step createdAt s input).2 := by
  cases input with
  | processPaymentRecord delivery =>
    have adds : Adds (fun _ => True) (fun _ => True) s.world (deliver s.world delivery).2 :=
      (adds_processPaymentRecord (fun _ _ => ⟨trivial,trivial⟩) s.world).1
    intro paymentId listed
    obtain ⟨row,there,same⟩ := referenced paymentId listed
    exact ⟨row,mem_of_grows adds.payment there,same⟩
  | appendPaymentChecksum new =>
    rw [step,Store.appendPaymentChecksum]
    split
    next live =>
      intro paymentId listed
      rcases createMany_sub listed with old | added
      · exact referenced paymentId old
      · obtain rfl := List.mem_singleton.mp added
        obtain ⟨row,there,same⟩ := List.any_eq_true.mp live
        exact ⟨row,there,of_decide_eq_true same⟩
    next => exact referenced
  | archiveOldPayments daysThreshold now fails =>
    rw [step]
    rcases archive_cases createdAt s daysThreshold now fails with same | ⟨unchecked,moved⟩
    · rw [same]
      exact referenced
    · rw [moved]
      intro paymentId listed
      obtain ⟨row,there,same⟩ := referenced paymentId listed
      refine ⟨row,List.mem_filter.mpr ⟨there,decide_eq_true fun inBatch => ?_⟩,same⟩
      obtain ⟨other,old,ids⟩ := List.mem_map.mp inBatch
      exact unchecked other old (ids.trans same ▸ listed)

theorem deliver_live (s : World p) (delivery : Delivery p) :
    (deliver s delivery).2 = s ∨
      ∃ row ∈ (deliver s delivery).2.payment.rows, row.txHash = getHorizonTxHash delivery.handling.record := by
  have ends : Ends (processPaymentRecord delivery.wallet delivery.skipGapCheck delivery.handling) s (fun _ s' =>
      s' = s ∨ ∃ row ∈ s'.payment.rows, row.txHash = getHorizonTxHash delivery.handling.record) := by
    refine ends_processPaymentRecordWith (fun _ => .inl rfl) (fun _ _ => .inl rfl) ?_
    intro transfer decision result s' _ _ ingested
    have later : InAdds (fun _ => True) (fun _ => True) (afterCommit
        (recoverFromLedgerGap delivery.wallet delivery.handling.trial delivery.handling.recent) delivery.wallet
        delivery.handling.trial delivery.handling.record transfer decision.1 result) := by
      refine inAdds_afterCommit trivial (inAdds_recover fun _ _ => ⟨trivial,trivial⟩)
    exact ends_mono (later s') fun _ _ kept => .inr ⟨result.payment,mem_of_grows kept.1.payment ingested.present,ingested.hash⟩
  exact ends

/-- What every sound run keeps: the tables are apart, and nothing that was in them is lost. -/
theorem sound_run {inputs : List (Input p)}
    (sound : ∀ t ∈ history (step createdAt) Store.empty inputs, Sound t.before t.input) :
    Apart (run (step createdAt) Store.empty inputs) ∧ ∀ t ∈ history (step createdAt) Store.empty inputs,
      Apart t.before ∧ Kept createdAt t.after (run (step createdAt) Store.empty inputs) := by
  induction inputs using List.reverseRecOn with
  | nil => exact ⟨fun row there => (by cases there),fun t listed => (by cases listed)⟩
  | append_singleton inputs last ih =>
    rw [history_append] at sound ⊢
    rw [run_append]
    obtain ⟨apart,earlier⟩ := ih fun t listed => sound t (List.mem_append_left _ listed)
    have soundLast := sound _ (List.mem_append_right _ (List.mem_singleton_self _))
    obtain ⟨kept,apart'⟩ := sound_step createdAt apart soundLast
    refine ⟨apart',?_⟩
    intro t listed
    rcases List.mem_append.mp listed with old | new
    · obtain ⟨apartT,keptT⟩ := earlier t old
      refine ⟨apartT,?_,fun copy there => kept.archive copy (keptT.archive copy there)⟩
      intro row there
      rcases keptT.payment row there with live | moved
      · exact kept.payment row live
      · exact .inr (kept.archive _ moved)
    · obtain rfl := List.mem_singleton.mp new
      exact ⟨apart,kept_refl _⟩

theorem home_of_kept {s s' : Store p} (kept : Kept createdAt s s') (apart : Apart s') {row : Payment p}
    (there : row ∈ s.world.payment.rows) : Home createdAt s' row := by
  rcases kept.payment row there with live | moved
  · exact .inl ⟨live,fun copy listed => (apart row live copy listed).1⟩
  · exact .inr ⟨moved,fun other live => Ne.symm (apart other live _ moved).1⟩

end

/-- A run of the archival moves its batch or changes nothing; where the services answer, it fails exactly if a payment of the batch has
    a checksum. A record that is processed leaves a live payment even if its own was archived. In a run in which none of those is
    processed again, every payment ever taken in is in exactly one table, a batch moves as a whole, and nothing new comes of what is
    archived. -/
theorem payments_conserved (createdAt : String → Nat) :
    (∀ (s : Store p) daysThreshold now fails,
      (step createdAt s (.archiveOldPayments daysThreshold now fails)).2 = s ∨
        (Unchecked s (s.oldPayments createdAt (cutoffDate daysThreshold now)) ∧
          (step createdAt s (.archiveOldPayments daysThreshold now fails)).2 =
            s.moved createdAt (s.oldPayments createdAt (cutoffDate daysThreshold now)))) ∧
    (∀ (s : Store p) daysThreshold now,
      (∃ error, (step createdAt s (.archiveOldPayments daysThreshold now fun _ => none)).1 = .error error) ↔
        ¬ Unchecked s (s.oldPayments createdAt (cutoffDate daysThreshold now))) ∧
    (∀ (s : Store p) delivery, (step createdAt s (.processPaymentRecord delivery)).2 = s ∨
      ∃ row ∈ (step createdAt s (.processPaymentRecord delivery)).2.world.payment.rows,
        row.txHash = getHorizonTxHash delivery.handling.record) ∧
    ∀ inputs : List (Input p), Referenced (run (step createdAt) Store.empty inputs) ∧
      ((∀ t ∈ history (step createdAt) Store.empty inputs, Sound t.before t.input) →
        (∀ t ∈ history (step createdAt) Store.empty inputs, ∀ row ∈ t.after.world.payment.rows,
          Home createdAt (run (step createdAt) Store.empty inputs) row) ∧
        ∀ t ∈ history (step createdAt) Store.empty inputs,
          (∀ daysThreshold now fails, t.input = .archiveOldPayments daysThreshold now fails → t.after = t.before ∨
            MovedWhole createdAt t.before t.after (t.before.oldPayments createdAt (cutoffDate daysThreshold now))) ∧
          ∀ delivery, t.input = .processPaymentRecord delivery →
            ∀ copy ∈ t.before.paymentArchive.rows, NothingNew copy.txHash t.before t.after) := by
  refine ⟨archive_cases createdAt,?_,?_,?_⟩
  · intro s daysThreshold now
    rw [← archive_fails_iff,step]
    cases (exec (archiveOldPayments createdAt daysThreshold now fun _ => none) s).1 with
    | error error => exact ⟨fun _ => ⟨error,rfl⟩,fun _ => ⟨_,rfl⟩⟩
    | ok result =>
      constructor
      · rintro ⟨error,failed⟩
        cases failed
      · rintro ⟨error,failed⟩
        cases failed
  · intro s delivery
    rcases deliver_live s.world delivery with same | live
    · left
      rw [step,same]
    · exact .inr live
  intro inputs
  have referenced : Referenced (run (step createdAt) (Store.empty (p := p)) inputs) :=
    run_inv (I := Referenced) (fun s input before => referenced_step before input) (fun _ listed => (by cases listed)) inputs
  refine ⟨referenced,?_⟩
  intro sound
  obtain ⟨apart,past⟩ := sound_run sound
  refine ⟨fun t listed row there => home_of_kept (past t listed).2 apart there,?_⟩
  intro t listed
  have apartT := (past t listed).1
  have soundT := sound t listed
  obtain ⟨earlier,input,rfl⟩ := mem_history listed
  refine ⟨?_,?_⟩
  · rintro daysThreshold now fails rfl
    rcases archive_cases createdAt (run (step createdAt) Store.empty earlier) daysThreshold now fails with
      same | ⟨_,moved⟩
    · exact .inl same
    · refine .inr ⟨?_,?_⟩
      · exact (congrArg (fun s => s.paymentArchive.rows) moved).trans (moved_rows createdAt apartT _)
      · exact congrArg (fun s => s.world.payment.rows) moved
  · rintro delivery rfl
    exact (deliver_step createdAt apartT soundT).2.2

/-- A native payment to the sample wallet. -/
def paid (txHash cuid : String) : Input plain := .processPaymentRecord (calmDelivery sampleWallet "1000" txHash cuid)

/-- A run of the archival 91 days after the first payment, for payments older than 90 days. -/
def archivedLater : Input plain := .archiveOldPayments 90 (91 * 24 * 60 * 60 * 1000) fun _ => none

def atStart : String → Nat := fun _ => 0

theorem payments_conserved_twice :
    ∀ row ∈ (run (step atStart) Store.empty [paid "aa" "p1"]).world.payment.rows,
      Home atStart (run (step atStart) Store.empty [paid "aa" "p1",archivedLater,paid "bb" "p2"]) row := by
  intro row there
  refine (((payments_conserved atStart).2.2.2 [paid "aa" "p1",archivedLater,paid "bb" "p2"]).2 ?_).1 _
    (List.mem_cons_self ..) row there
  intro t listed
  rcases List.mem_cons.mp listed with rfl | later
  · intro call _ copy absent
    cases absent
  rcases List.mem_cons.mp later with rfl | last
  · trivial
  · obtain rfl := List.mem_singleton.mp last
    intro call called copy there
    have own : call = ((calmDelivery sampleWallet "1000" "bb" "p2").handling.record,calm "p2") := List.mem_singleton.mp called
    have one : copy.txHash ∈ ["aa"] := List.mem_map_of_mem (f := PaymentArchive.txHash) there
    have one' : copy.id ∈ ["arch_p1"] := List.mem_map_of_mem (f := PaymentArchive.id) there
    rw [List.mem_singleton.mp one,List.mem_singleton.mp one',own]
    decide +kernel

/-- A run fails because an old payment has a checksum; and a record that is delivered again
    after the archival of its payment has a row in both tables and a second alert. -/
theorem redelivered_after_archival :
    (step atStart (run (step atStart) Store.empty [paid "aa" "p1",.appendPaymentChecksum "p1"]) archivedLater).1 =
        .error "Archival failed: Foreign key constraint violated" ∧
      (run (step atStart) Store.empty [paid "aa" "p1",archivedLater,paid "aa" "p3"]).world.payment.rows.map Payment.txHash =
        ["aa"] ∧
      (run (step atStart) Store.empty [paid "aa" "p1",archivedLater,paid "aa" "p3"]).paymentArchive.rows.map
        PaymentArchive.txHash = ["aa"] ∧
      (run (step atStart) Store.empty [paid "aa" "p1",archivedLater,paid "aa" "p3"]).world.alertQueue.length = 2 := by
  refine ⟨?_,?_,?_,?_⟩
  · rfl
  · rfl
  · rfl
  · rfl

end StellarAlerts.PaymentArchival
