import StellarAlerts.FirstOfKey
import StellarAlerts.SeparatedText
import StellarAlerts.SorobanPolling
import StellarAlerts.UniqueTables

/-!
The backfill of transfer events. An event has its own row where no other has its
fingerprint, and events that agree in all five share one (`backfill_exact`).
-/
namespace StellarAlerts.SorobanBackfill
open FirstOfKey Histories IntegerText SeparatedText
open SorobanPolling (Topic)
open UniqueTables

/-! ### The worker -/

structure TransferParties where
  «from» : Option String
  «to» : Option String

/-- The data of an event, an amount as its text. -/
structure TransferValue where
  «from» : Option String
  «to» : Option String
  transfer : Option TransferParties
  amount : Option String

def TransferValue.empty : TransferValue := ⟨none,none,none,none⟩

structure BackfillEvent where
  contractId : Option String
  ledgerSeq : Option Nat
  ledger : Option Nat
  topic : List Topic
  value : Option TransferValue

structure ParsedSorobanTransfer where
  contractId : String
  «from» : String
  «to» : String
  amount : String
  topic : Topic
  ledgerSeq : Option Nat

/-- `text || fallback`. -/
def orText (text : Option String) (fallback : String) : String :=
  match text with
  | some word => if word = "" then fallback else word
  | none => fallback

/-- `ledger || fallback`. -/
def orLedger (ledger fallback : Option Nat) : Option Nat :=
  match ledger with
  | some (n + 1) => some (n + 1)
  | _ => fallback

def parseSorobanTransferEvent (event : BackfillEvent) : Option ParsedSorobanTransfer :=
  match event.topic with
  | [] => none
  | topic :: _ =>
    let value := event.value.getD .empty
    some {
      contractId := orText event.contractId ""
      «from» := orText value.from (orText (value.transfer.bind TransferParties.from) "")
      «to» := orText value.to (orText (value.transfer.bind TransferParties.to) "")
      amount := orText value.amount "0"
      topic := topic
      ledgerSeq := orLedger event.ledgerSeq event.ledger }

structure SorobanEventSnapshot where
  contractId : String
  «from» : String
  «to» : String
  amount : String
  ledgerSeq : Nat
  eventType : String
deriving DecidableEq, Repr

/-- The unique key of contract, ledger, sender, recipient and amount. -/
def clash (a b : SorobanEventSnapshot) : Bool :=
  a.contractId == b.contractId && a.ledgerSeq == b.ledgerSeq && a.from == b.from && a.to == b.to && a.amount == b.amount

abbrev Snapshots : Type := Table SorobanEventSnapshot clash
def snapshotOf (parsed : ParsedSorobanTransfer) : SorobanEventSnapshot :=
  ⟨parsed.contractId,parsed.from,parsed.to,parsed.amount,parsed.ledgerSeq.getD 0,"transfer"⟩
def fingerprint (row : SorobanEventSnapshot) : String :=
  row.contractId ++ ":" ++ toString row.ledgerSeq ++ ":" ++ row.from ++ ":" ++ row.to ++ ":" ++ row.amount

/-- The state of the loop over a batch. -/
structure Progress where
  seenInBatch : List String
  stored : Nat
  duplicated : Nat
  rows : Snapshots

/-- One event; the database refuses the rows that it does not accept for another reason than a unique constraint. -/
def storeEvent (accepts : SorobanEventSnapshot → Bool) (progress : Progress) (event : BackfillEvent) : Progress :=
  match parseSorobanTransferEvent event with
  | none => progress
  | some parsed =>
    let row := snapshotOf parsed
    if fingerprint row ∈ progress.seenInBatch then { progress with duplicated := progress.duplicated + 1 }
    else
      let seenInBatch := progress.seenInBatch ++ [fingerprint row]
      if !accepts row then { progress with seenInBatch := seenInBatch }
      else
        match progress.rows.insert row with
        | none => { progress with seenInBatch := seenInBatch, duplicated := progress.duplicated + 1 }
        | some rows => { progress with seenInBatch := seenInBatch, stored := progress.stored + 1, rows := rows }

/-- How many rows were stored, and how many events were duplicates. -/
structure Counts where
  stored : Nat
  duplicated : Nat
deriving DecidableEq, Repr

def deduplicateAndStoreEvents (accepts : SorobanEventSnapshot → Bool) (rows : Snapshots) (events : List BackfillEvent) :
    Counts × Snapshots :=
  let progress := events.foldl (storeEvent accepts) ⟨[],0,0,rows⟩
  (⟨progress.stored,progress.duplicated⟩,progress.rows)

/-! ### Events by their identity -/

structure EventId where
  txHash : String
  index : Nat
deriving DecidableEq, Repr

/-- A call with a batch of events of the chain, and what the database accepts meanwhile. -/
structure Call where
  batch : List EventId
  accepts : SorobanEventSnapshot → Bool

section
variable (chain : EventId → BackfillEvent)

def step (rows : Snapshots) (call : Call) : Counts × Snapshots :=
  deduplicateAndStoreEvents call.accepts rows (call.batch.map chain)
def rowOf (id : EventId) : Option SorobanEventSnapshot := (parseSorobanTransferEvent (chain id)).map snapshotOf
def asked (batch : List EventId) : List SorobanEventSnapshot :=
  firsts (fun _ => true) fingerprint (batch.filterMap (rowOf chain))
def OneRowEach (before after : Snapshots) (batch : List EventId) : Prop :=
  ∃ added, after.rows = before.rows ++ added ∧ (added.map some).Perm (batch.dedup.map (rowOf chain))

end

/-! ### Fingerprints -/

section
variable {a b : SorobanEventSnapshot}

theorem clash_iff : clash a b = true ↔ a.contractId = b.contractId ∧ a.ledgerSeq = b.ledgerSeq ∧ a.from = b.from ∧
    a.to = b.to ∧ a.amount = b.amount := by
  simp only [clash,Bool.and_eq_true,beq_iff_eq,and_assoc]

theorem clash_refl (a : SorobanEventSnapshot) : clash a a = true := by
  simp [clash]

theorem fingerprint_of_clash (same : clash a b = true) : fingerprint a = fingerprint b := by
  obtain ⟨contracts,ledgers,froms,tos,amounts⟩ := clash_iff.mp same
  rw [fingerprint,fingerprint,contracts,ledgers,froms,tos,amounts]

/-- No colon in the contract, the sender and the recipient, as addresses have none. -/
structure Plain (row : SorobanEventSnapshot) : Prop where
  contractId : ':' ∉ row.contractId.toList
  «from» : ':' ∉ row.from.toList
  «to» : ':' ∉ row.to.toList

theorem plain_decimal (n : Nat) : ':' ∉ (toString n).toList := by
  intro listed
  have digits := (isDigits_iff.mp (decimal_toString n).1).2 ':' listed
  exact absurd digits (by decide)

theorem clash_of_fingerprint (plainA : Plain a) (plainB : Plain b) (same : fingerprint a = fingerprint b) :
    clash a b = true := by
  have letters := congrArg String.toList same
  have colon : (":" : String).toList = [':'] := rfl
  simp only [fingerprint,String.toList_append,colon,List.append_assoc,List.singleton_append] at letters
  obtain ⟨contracts,letters⟩ := cut_at plainA.contractId plainB.contractId letters
  obtain ⟨ledgers,letters⟩ := cut_at (plain_decimal _) (plain_decimal _) letters
  obtain ⟨froms,letters⟩ := cut_at plainA.from plainB.from letters
  obtain ⟨tos,amounts⟩ := cut_at plainA.to plainB.to letters
  have ledgers' : a.ledgerSeq = b.ledgerSeq := by
    rw [← (decimal_toString a.ledgerSeq).2,String.toList_injective ledgers,(decimal_toString b.ledgerSeq).2]
  exact clash_iff.mpr ⟨String.toList_injective contracts,ledgers',String.toList_injective froms,
    String.toList_injective tos,String.toList_injective amounts⟩

end

/-! ### A batch -/

/-- The database accepts the row, and the table has none that clashes with it. -/
def isNew (accepts : SorobanEventSnapshot → Bool) (rows : Snapshots) (row : SorobanEventSnapshot) : Bool :=
  accepts row && !rows.holds row

theorem holds_of_apart {before after : Snapshots} {added : List SorobanEventSnapshot} {row : SorobanEventSnapshot}
    (rowsAre : after.rows = before.rows ++ added) (apart : ∀ a ∈ added, fingerprint a ≠ fingerprint row) :
    after.holds row = before.holds row := by
  have none : added.any (clash · row) = false := by
    refine List.any_eq_false.mpr fun a listed clashes => ?_
    exact apart a listed (fingerprint_of_clash clashes)
  rw [Table.holds,rowsAre,List.any_append,none,Bool.or_false]
  rfl

/-- What the loop has made of the first events of a batch. -/
structure Stored (accepts : SorobanEventSnapshot → Bool) (before : Snapshots) (kept : List SorobanEventSnapshot)
    (progress : Progress) : Prop where
  seen : progress.seenInBatch = kept.map fingerprint
  rows : progress.rows.rows = before.rows ++ kept.filter (isNew accepts before)
  stored : progress.stored = (kept.filter (isNew accepts before)).length

section
variable {accepts : SorobanEventSnapshot → Bool} {before : Snapshots}

theorem stored_step {kept : List SorobanEventSnapshot} {progress : Progress} (sofar : Stored accepts before kept progress)
    {event : BackfillEvent} {parsed : ParsedSorobanTransfer} (parses : parseSorobanTransferEvent event = some parsed) :
    Stored accepts before (keep (fun _ => true) fingerprint kept (snapshotOf parsed)) (storeEvent accepts progress event) := by
  have seen : fingerprint (snapshotOf parsed) ∈ progress.seenInBatch ↔
      ¬ (kept.all fun row => fingerprint row ≠ fingerprint (snapshotOf parsed)) = true := by
    rw [sofar.seen]
    simp
  by_cases old : fingerprint (snapshotOf parsed) ∈ progress.seenInBatch
  · have same : keep (fun _ => true) fingerprint kept (snapshotOf parsed) = kept := by
      rw [keep,if_neg (by rw [Bool.true_and]; exact seen.mp old)]
    simp only [storeEvent,parses,old,↓reduceIte,same]
    exact ⟨sofar.seen,sofar.rows,sofar.stored⟩
  · have apart := not_not.mp (mt seen.mpr old)
    have more : keep (fun _ => true) fingerprint kept (snapshotOf parsed) = kept ++ [snapshotOf parsed] := by
      rw [keep,if_pos (by rw [Bool.true_and]; exact apart)]
    have held : progress.rows.holds (snapshotOf parsed) = before.holds (snapshotOf parsed) := by
      refine holds_of_apart sofar.rows fun row listed => ?_
      exact of_decide_eq_true (List.all_eq_true.mp apart row (List.mem_of_mem_filter listed))
    rw [more]
    by_cases accepted : accepts (snapshotOf parsed) = true
    · cases inserted : progress.rows.insert (snapshotOf parsed) with
      | none =>
        have taken := insert_eq_none.mp inserted
        have notNew : isNew accepts before (snapshotOf parsed) = false := by
          rw [isNew,← held,taken]
          simp
        simp only [storeEvent,parses,old,↓reduceIte,accepted,Bool.not_true,Bool.false_eq_true,inserted]
        refine ⟨?_,?_,?_⟩
        · simp [sofar.seen]
        · simp [sofar.rows,notNew]
        · simp [sofar.stored,notNew]
      | some rows =>
        have new : isNew accepts before (snapshotOf parsed) = true := by
          rw [isNew,← held,insert_free inserted,accepted]
          rfl
        simp only [storeEvent,parses,old,↓reduceIte,accepted,Bool.not_true,Bool.false_eq_true,inserted]
        refine ⟨?_,?_,?_⟩
        · simp [sofar.seen]
        · simp [insert_rows inserted,sofar.rows,new]
        · simp [sofar.stored,new]
    · have notNew : isNew accepts before (snapshotOf parsed) = false := by
        rw [isNew,Bool.eq_false_iff.mpr accepted,Bool.false_and]
      simp only [storeEvent,parses,old,↓reduceIte,accepted,Bool.not_false]
      refine ⟨?_,?_,?_⟩
      · simp [sofar.seen]
      · simp [sofar.rows,notNew]
      · simp [sofar.stored,notNew]

theorem stored_batch (accepts : SorobanEventSnapshot → Bool) (before : Snapshots) (chain : EventId → BackfillEvent)
    (batch : List EventId) :
    Stored accepts before (asked chain batch) ((batch.map chain).foldl (storeEvent accepts) ⟨[],0,0,before⟩) := by
  induction batch using List.reverseRecOn with
  | nil => exact ⟨rfl,by simp [asked,firsts],by simp [asked,firsts]⟩
  | append_singleton batch last ih =>
    rw [List.map_append,List.foldl_append,asked,List.filterMap_append]
    cases parses : parseSorobanTransferEvent (chain last) with
    | none =>
      have skipped : storeEvent accepts ((batch.map chain).foldl (storeEvent accepts) ⟨[],0,0,before⟩) (chain last) =
          (batch.map chain).foldl (storeEvent accepts) ⟨[],0,0,before⟩ := by
        simp only [storeEvent,parses]
      have none_ : [last].filterMap (rowOf chain) = [] := by simp [rowOf,parses]
      rw [none_,List.append_nil,List.map_singleton,List.foldl_cons,List.foldl_nil,skipped]
      exact ih
    | some parsed =>
      have one : [last].filterMap (rowOf chain) = [snapshotOf parsed] := by simp [rowOf,parses]
      rw [one,firsts_concat]
      exact stored_step ih parses

end


section
variable {chain : EventId → BackfillEvent} {rows : Snapshots}

theorem step_rows (chain : EventId → BackfillEvent) (rows : Snapshots) (call : Call) :
    (step chain rows call).2.rows = rows.rows ++ (asked chain call.batch).filter (isNew call.accepts rows) ∧
      (step chain rows call).1.stored = ((asked chain call.batch).filter (isNew call.accepts rows)).length :=
  ⟨(stored_batch call.accepts rows chain call.batch).rows,(stored_batch call.accepts rows chain call.batch).stored⟩

theorem asked_nodup (batch : List EventId) : ((asked chain batch).map fingerprint).Nodup := firsts_keys_nodup _

theorem mem_of_asked {batch : List EventId} {row : SorobanEventSnapshot} (listed : row ∈ asked chain batch) :
    ∃ id ∈ batch, rowOf chain id = some row := by
  obtain ⟨inRows,_⟩ := mem_of_mem_firsts listed
  exact List.mem_filterMap.mp inRows

/-! ### One row for each event -/

structure Distinct (chain : EventId → BackfillEvent) (accepts : SorobanEventSnapshot → Bool) (rows : Snapshots)
    (batch : List EventId) : Prop where
  made : ∀ id ∈ batch, ∃ row, rowOf chain id = some row ∧ isNew accepts rows row = true
  apart : ∀ id ∈ batch, ∀ other ∈ batch, (rowOf chain id).map fingerprint = (rowOf chain other).map fingerprint → id = other

variable {call : Call}

theorem distinct_of_oneRowEach (one : OneRowEach chain rows (step chain rows call).2 call.batch) :
    Distinct chain call.accepts rows call.batch := by
  obtain ⟨added,rowsAre,perm⟩ := one
  rw [(step_rows chain rows call).1] at rowsAre
  obtain rfl := List.append_cancel_left rowsAre
  refine ⟨?_,?_⟩
  · intro id listed
    have member := perm.mem_iff.mpr (List.mem_map_of_mem (f := rowOf chain) (List.mem_dedup.mpr listed))
    obtain ⟨row,there,same⟩ := List.mem_map.mp member
    exact ⟨row,same.symm,(List.mem_filter.mp there).2⟩
  · have unique : ((((asked chain call.batch).filter (isNew call.accepts rows)).map some).map
        (Option.map fingerprint)).Nodup := by
      rw [List.map_map]
      have some_ : (Option.map fingerprint ∘ some : SorobanEventSnapshot → Option String) = some ∘ fingerprint := rfl
      rw [some_,← List.map_map]
      refine List.Nodup.map (Option.some_injective String) ?_
      exact (asked_nodup call.batch).sublist (List.filter_sublist.map fingerprint)
    rw [(perm.map (Option.map fingerprint)).nodup_iff,List.map_map] at unique
    intro id listed other listed' same
    exact List.inj_on_of_nodup_map unique (List.mem_dedup.mpr listed) (List.mem_dedup.mpr listed') same

theorem oneRowEach_of_distinct (distinct : Distinct chain call.accepts rows call.batch) :
    OneRowEach chain rows (step chain rows call).2 call.batch := by
  refine ⟨_,(step_rows chain rows call).1,?_⟩
  have unique : (((asked chain call.batch).filter (isNew call.accepts rows)).map some).Nodup := by
    refine List.Nodup.map (Option.some_injective _) ?_
    exact (List.Nodup.of_map fingerprint (asked_nodup call.batch)).filter _
  have unique' : (call.batch.dedup.map (rowOf chain)).Nodup := by
    refine List.Nodup.map_on ?_ (List.nodup_dedup _)
    intro id listed other listed' same
    exact distinct.apart id (List.mem_dedup.mp listed) other (List.mem_dedup.mp listed') (congrArg _ same)
  refine (List.perm_ext_iff_of_nodup unique unique').mpr fun row => ?_
  constructor
  · intro listed
    obtain ⟨row,there,rfl⟩ := List.mem_map.mp listed
    obtain ⟨id,member,same⟩ := mem_of_asked (List.mem_of_mem_filter there)
    exact List.mem_map.mpr ⟨id,List.mem_dedup.mpr member,same⟩
  · intro listed
    obtain ⟨id,member,rfl⟩ := List.mem_map.mp listed
    obtain ⟨row,same,new⟩ := distinct.made id (List.mem_dedup.mp member)
    rw [same]
    refine List.mem_map_of_mem (List.mem_filter.mpr ⟨?_,new⟩)
    refine mem_firsts_of_alone (List.mem_filterMap.mpr ⟨id,List.mem_dedup.mp member,same⟩) rfl ?_
    intro other inRows prints
    obtain ⟨id',member',same'⟩ := List.mem_filterMap.mp inRows
    have ids := distinct.apart id' member' id (List.mem_dedup.mp member) (by rw [same,same',Option.map_some,Option.map_some,prints])
    rw [ids,same] at same'
    exact (Option.some.inj same').symm

/-! ### The batch again -/

theorem rows_grow (calls : List Call) : rows.rows <+: (run (step chain) rows calls).rows := by
  refine run_related (I := fun _ => True) (R := fun a b : Snapshots => a.rows <+: b.rows) (fun _ => List.prefix_rfl)
    (fun first second => first.trans second) (fun _ _ _ => trivial) ?_ trivial calls
  intro before call _
  rw [(step_rows chain before call).1]
  exact List.prefix_append ..

theorem holds_grow {after : Snapshots} (more : rows.rows <+: after.rows) {row : SorobanEventSnapshot}
    (held : rows.holds row = true) : after.holds row = true := by
  obtain ⟨a,there,clashes⟩ := holds_iff.mp held
  exact holds_iff.mpr ⟨a,more.subset there,clashes⟩

theorem nothing_new {after : Snapshots} (more : (step chain rows call).2.rows <+: after.rows)
    {accepts : SorobanEventSnapshot → Bool} (accepted : ∀ row, accepts row = true → call.accepts row = true) :
    (asked chain call.batch).filter (isNew accepts after) = [] := by
  refine List.filter_eq_nil_iff.mpr fun row listed new => ?_
  simp only [isNew,Bool.and_eq_true,Bool.not_eq_eq_eq_not,Bool.not_true] at new
  have there : (step chain rows call).2.holds row = true := by
    by_cases held : rows.holds row = true
    · refine holds_grow ?_ held
      rw [(step_rows chain rows call).1]
      exact List.prefix_append ..
    · refine holds_iff.mpr ⟨row,?_,clash_refl row⟩
      rw [(step_rows chain rows call).1]
      refine List.mem_append_right _ (List.mem_filter.mpr ⟨listed,?_⟩)
      rw [isNew,accepted row new.1,Bool.eq_false_iff.mpr held]
      rfl
  rw [holds_grow more there] at new
  cases new.2

/-- A batch adds one row for each fingerprint of its events that is new to the table, and so one for each event where the fingerprints
    differ, which tell the five fields apart. The same batch again adds nothing, also after others. -/
theorem backfill_exact (chain : EventId → BackfillEvent) (rows : Snapshots) (call : Call) :
    (step chain rows call).2.rows = rows.rows ++ (asked chain call.batch).filter (isNew call.accepts rows) ∧
    (OneRowEach chain rows (step chain rows call).2 call.batch ↔ Distinct chain call.accepts rows call.batch) ∧
    (∀ a b, Plain a → Plain b → (fingerprint a = fingerprint b ↔ clash a b = true)) ∧
    ∀ (later : List Call) accepts, (∀ row, accepts row = true → call.accepts row = true) →
      (step chain (run (step chain) rows (call :: later)) ⟨call.batch,accepts⟩).2 =
          run (step chain) rows (call :: later) ∧
        (step chain (run (step chain) rows (call :: later)) ⟨call.batch,accepts⟩).1.stored = 0 := by
  refine ⟨(step_rows chain rows call).1,⟨distinct_of_oneRowEach,oneRowEach_of_distinct⟩,?_,?_⟩
  · exact fun a b plainA plainB => ⟨clash_of_fingerprint plainA plainB,fingerprint_of_clash⟩
  · intro later accepts accepted
    have none : (asked chain call.batch).filter (isNew accepts (run (step chain) rows (call :: later))) = [] :=
      nothing_new (rows_grow later) accepted
    obtain ⟨rowsAre,stored⟩ := step_rows chain (run (step chain) rows (call :: later)) ⟨call.batch,accepts⟩
    rw [none] at rowsAre stored
    refine ⟨?_,stored⟩
    rw [List.append_nil] at rowsAre
    exact eq_of_rows rowsAre

end

/-- A transfer of an amount from A to B in the ledger 5 of the contract `C`. -/
def transferOf (amount : String) : BackfillEvent :=
  ⟨some "C",some 5,none,[.other],some ⟨some "A",some "B",none,some amount⟩⟩

theorem backfill_exact_two :
    OneRowEach (fun id => transferOf id.txHash) .empty
      (step (fun id => transferOf id.txHash) .empty ⟨[⟨"1",0⟩,⟨"2",0⟩],fun _ => true⟩).2 [⟨"1",0⟩,⟨"2",0⟩] := by
  refine (backfill_exact _ .empty ⟨[⟨"1",0⟩,⟨"2",0⟩],fun _ => true⟩).2.1.mpr ⟨?_,?_⟩
  · exact fun id _ => ⟨_,rfl,rfl⟩
  · decide +kernel

/-- The same transfer in every transaction. -/
def transfer : EventId → BackfillEvent := fun _ => transferOf "10"

/-- Two transactions that make the same transfer in a ledger share one row. -/
theorem transfers_merged :
    (step transfer .empty ⟨[⟨"s",0⟩,⟨"t",0⟩],fun _ => true⟩).2.rows.length = 1 ∧
      ¬ OneRowEach transfer .empty (step transfer .empty ⟨[⟨"s",0⟩,⟨"t",0⟩],fun _ => true⟩).2 [⟨"s",0⟩,⟨"t",0⟩] := by
  have rows : (step transfer .empty ⟨[⟨"s",0⟩,⟨"t",0⟩],fun _ => true⟩).2.rows.length = 1 := by decide +kernel
  refine ⟨rows,?_⟩
  rintro ⟨added,rowsAre,perm⟩
  have length := perm.length_eq
  rw [rowsAre,empty_rows,List.nil_append] at rows
  rw [List.length_map,rows] at length
  exact absurd length (by decide)

end StellarAlerts.SorobanBackfill
