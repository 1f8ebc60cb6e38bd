import Mathlib.Data.List.Infix
import StellarAlerts.CursorCodec
import StellarAlerts.JsValues
import StellarAlerts.UniqueTables

/-!
The inspection of the dead letter queue and the replay by the same filter. Each makes a `where` object of
its own: the replay leaves the failure class and the dates out and writes over the status. So what is
replayed is what the inspection shows exactly for the filters that have none of these
(`replay_inspected_iff`); what is suppressed is never replayed without force.
-/
namespace StellarAlerts.DlqReplay
open CursorCodec (Runtime given)
open DateTexts (Date)
open JsonTexts JsValues OrderedMaps RowQueries UniqueTables

structure Payment where
  id : String
  walletId : String
deriving DecidableEq, Repr

/-- The columns that the queries and the replay read. -/
structure DeadLetter where
  id : String
  deliveryKey : Option String
  paymentId : Option String
  channel : String
  destination : Option String
  payload : Option Json
  status : String
  failureClass : String
  retryCount : Nat
  failedAt : Date

structure DeadLetterAudit where
  deadLetterId : String
  actorUserId : Option String
  action : String
  note : String
deriving DecidableEq, Repr

structure Store where
  payments : Table Payment fun a b => a.id == b.id
  deadLetters : Table DeadLetter fun a b => a.id == b.id

inductive DateInput where
  | date (d : Option Date)
  | text (s : String)

structure DlqFilterParams where
  walletId : Option String
  destination : Option String
  channel : Option String
  status : Option String
  fromDate : Option DateInput
  toDate : Option DateInput
  failureClass : Option String
  limit : Option Nat
  offset : Option Nat

structure DlqReplayRequest where
  ids : List String
  filter : Option DlqFilterParams
  actorUserId : Option String
  force : Bool

/-- A bound that is given: any object, or a text that is not empty. -/
def givenDate : Option DateInput → Option DateInput
  | some (.text "") => none
  | bound => bound

section Queries
variable (db : Database) (r : Runtime) (payments : List Payment)

/-- `new Date(bound)`, which may be invalid. -/
def newDate : DateInput → Option Date
  | .date d => d
  | .text s => r.parseDate s

def ofWallet (walletId : String) (row : DeadLetter) : Bool :=
  payments.any fun payment => row.paymentId = some payment.id && payment.walletId = walletId
def contains (destination : String) (row : DeadLetter) : Bool :=
  row.destination.any fun text => db.contains text destination

/-- The bound that is asked for, if it is valid. -/
def bound (input : Option DateInput) : Option (Option Date) :=
  match givenDate input with
  | none => some none
  | some input => (newDate r input).map some

/-- The condition on `failedAt`; a query with an invalid date is refused. -/
def failedAtBetween (fromDate toDate : Option DateInput) : Option (Option (DeadLetter → Bool)) :=
  match bound r fromDate, bound r toDate with
  | some none, some none => some none
  | some first, some last => some (some fun row =>
      first.all (fun first => first.ms ≤ row.failedAt.ms) && last.all fun last => row.failedAt.ms ≤ last.ms)
  | _, _ => none

/-- The `where` of `inspectDlq`. -/
def inspectWhere (filter : DlqFilterParams) : Option (Where DeadLetter) :=
  let w := assign .empty "channel" ((given filter.channel).map fun channel row => decide (row.channel = channel))
  let w := assign w "status" ((given filter.status).map fun status row => decide (row.status = status))
  let w := assign w "destination" ((given filter.destination).map (contains db))
  let w := assign w "failureClass" ((given filter.failureClass).map fun failureClass row => decide (row.failureClass = failureClass))
  let w := assign w "payment" ((given filter.walletId).map (ofWallet payments))
  (failedAtBetween r filter.fromDate filter.toDate).map (assign w "failedAt")

/-- The `where` of `replayJobs`. -/
def replayWhere (request : DlqReplayRequest) : Except String (Where DeadLetter) := do
  let w ← match request.ids, request.filter with
    | id :: ids, _ => .ok (OrderedMap.empty.set "id" fun row : DeadLetter => (id :: ids).contains row.id)
    | [], some filter =>
      let w := assign .empty "channel" ((given filter.channel).map fun channel row => decide (row.channel = channel))
      let w := assign w "status" ((given filter.status).map fun status row => decide (row.status = status))
      let w := assign w "destination" ((given filter.destination).map (contains db))
      .ok (assign w "payment" ((given filter.walletId).map (ofWallet payments)))
    | [], none => .error "Must specify job ids or filter criteria for replay"
  .ok (if request.force then w else w.set "status" fun row => decide (row.status ≠ "suppressed"))

end Queries

/-- The rows of a page in the order of the list, and how many there are in all. -/
structure DlqPage where
  items : List DeadLetter
  total : Nat
  limit : Nat
  offset : Nat
  hasMore : Bool

def inspectDlq (filter : DlqFilterParams) (ordered : List DeadLetter) : DlqPage :=
  let limit := filter.limit.getD 50
  let offset := filter.offset.getD 0
  let items := (ordered.drop offset).take limit
  ⟨items,ordered.length,limit,offset,decide (offset + items.length < ordered.length)⟩

structure AlertJobData where
  paymentId : String
  txHash : Json
  walletId : Json
  amount : String
  asset : Json
  assetIssuer : Json
  fromAddress : Json
  receivedAt : Json

/-- `v ?? alternative`. -/
def orElse (v : Option Json) (alternative : Json) : Json :=
  match v with
  | none => alternative
  | some .null => alternative
  | some v => v

def isTruthy (v : Option Json) : Bool := v.any truthy

/-- The payload itself where it is a job's data, otherwise its member `data`. -/
def candidate (value : List (String × Json)) : Json :=
  if isTruthy (lookup value "walletId") && isTruthy (lookup value "txHash") then .object value else orElse (lookup value "data") .null

/-- What a job needs, read from a stored payload. The text of an amount may throw. -/
def toAlertJobData (t : Texts) (now : Date) (payload : Option Json) : Except String (Option AlertJobData) :=
  match payload with
  | some (.object value) =>
    match candidate value with
    | .object data =>
      match lookup data "paymentId" with
      | some (.string paymentId) => do
        let amount ← match lookup data "amount" with
          | some (.string amount) => .ok amount
          | amount => toText t (orElse amount (.string "0"))
        .ok (some ⟨paymentId,orElse (lookup data "txHash") (.string "unknown"),orElse (lookup data "walletId") (.string ""),
          amount,orElse (lookup data "asset") (.string "XLM"),orElse (lookup data "assetIssuer") .null,
          orElse (lookup data "fromAddress") (.string ""),
          orElse (lookup data "receivedAt") (.string (DateTexts.toISOString now))⟩)
      | _ => .ok none
    | _ => .ok none
  | _ => .ok none

/-- What becomes of the job and of the transaction behind it. -/
inductive Outcome where
  | notQueued
  | notStored
  | replayed
deriving DecidableEq, Repr

structure QueuedJob where
  deadLetter : DeadLetter
  data : AlertJobData
  jobId : String

structure Replay where
  queued : List QueuedJob
  replayedIds : List String
  failedIds : List String
  deadLetters : Table DeadLetter fun a b => a.id == b.id
  audits : List DeadLetterAudit

def replayJobId (now : Date) (dl : DeadLetter) : String :=
  match given dl.deliveryKey with
  | some deliveryKey => "replay-" ++ deliveryKey ++ "-" ++ toString now.ms
  | none => "replay-" ++ dl.id ++ "-" ++ toString now.ms

def retried (id : String) (row : DeadLetter) : DeadLetter :=
  if row.id = id then { row with status := "retried", retryCount := row.retryCount + 1 } else row

theorem retried_id (id : String) (row : DeadLetter) : (retried id row).id = row.id := by
  unfold retried
  split <;> rfl

/-- One round of the loop of `replayJobs`. -/
def replayOne (t : Texts) (now : Date) (actorUserId : Option String) (outcome : DeadLetter → Outcome) (s : Replay) (dl : DeadLetter) :
    Replay :=
  match toAlertJobData t now dl.payload with
  | .error _ => { s with failedIds := s.failedIds ++ [dl.id] }
  | .ok none => { s with failedIds := s.failedIds ++ [dl.id] }
  | .ok (some data) =>
    let job : QueuedJob := ⟨dl,data,replayJobId now dl⟩
    match outcome dl with
    | .notQueued => { s with failedIds := s.failedIds ++ [dl.id] }
    | .notStored => { s with queued := s.queued ++ [job], failedIds := s.failedIds ++ [dl.id] }
    | .replayed =>
      { queued := s.queued ++ [job]
        replayedIds := s.replayedIds ++ [dl.id]
        failedIds := s.failedIds
        deadLetters := s.deadLetters.map (retried dl.id) fun a b => by rw [retried_id,retried_id]
        audits := s.audits ++ [⟨dl.id,actorUserId,"replay","Re-queued to primary alert queue preserving idempotency keys"⟩] }

/-- What the database answers: rows that are selected, in any order, at most as many as are taken. -/
def Found (w : Where DeadLetter) (rows : List DeadLetter) (take : Nat) (found : List DeadLetter) : Prop :=
  ∃ order : List DeadLetter, order.Perm (rows.filter (selects w)) ∧ found = order.take take

section
variable (db : Database) (r : Runtime) (t : Texts)

def replayJobs (now : Date) (store : Store) (request : DlqReplayRequest) (find : Where DeadLetter → List DeadLetter)
    (outcome : DeadLetter → Outcome) : Except String Replay := do
  let w ← replayWhere db store.payments.rows request
  .ok ((find w).foldl (replayOne t now request.actorUserId outcome) ⟨[],[],[],store.deadLetters,[]⟩)

/-- The row is among those that the inspection with the filter selects. -/
def Inspected (payments : List Payment) (filter : DlqFilterParams) (row : DeadLetter) : Prop :=
  ∃ w, inspectWhere db r payments filter = some w ∧ selects w row = true

/-- The filter asks for no status and no class, and its bounds leave out no date: `fromDate` is absent or the first date
    that there is, `toDate` absent or the last. -/
def Unnarrowed (filter : DlqFilterParams) : Prop :=
  given filter.status = none ∧ given filter.failureClass = none ∧
    (∃ first, bound r filter.fromDate = some first ∧ ∀ d, first = some d → d.ms = -8640000000000000) ∧
    ∃ last, bound r filter.toDate = some last ∧ ∀ d, last = some d → d.ms = 8640000000000000

end

section
variable {db : Database} {r : Runtime} {t : Texts}

variable {actorUserId : Option String} {outcome : DeadLetter → Outcome}

theorem replayOne_queued {now : Date} {s : Replay} {dl : DeadLetter} {job : QueuedJob}
    (queued : job ∈ (replayOne t now actorUserId outcome s dl).queued) : job ∈ s.queued ∨ job.deadLetter = dl := by
  unfold replayOne at queued
  split at queued
  · exact .inl queued
  · exact .inl queued
  · split at queued
    · exact .inl queued
    · rcases List.mem_append.mp queued with before | last
      · exact .inl before
      · exact .inr (by rw [List.mem_singleton.mp last])
    · rcases List.mem_append.mp queued with before | last
      · exact .inl before
      · exact .inr (by rw [List.mem_singleton.mp last])

theorem replayed_found {now : Date} {found : List DeadLetter} {s : Replay} {job : QueuedJob}
    (queued : job ∈ (found.foldl (replayOne t now actorUserId outcome) s).queued) :
    job ∈ s.queued ∨ job.deadLetter ∈ found := by
  induction found generalizing s with
  | nil => exact .inl queued
  | cons dl rest ih =>
    rcases ih queued with before | later
    · rcases replayOne_queued before with earlier | own
      · exact .inl earlier
      · exact .inr (own ▸ List.mem_cons_self)
    · exact .inr (List.mem_cons_of_mem _ later)

theorem found_selected {w : Where DeadLetter} {rows found : List DeadLetter} {take : Nat} (answer : Found w rows take found)
    {row : DeadLetter} (listed : row ∈ found) : selects w row = true := by
  obtain ⟨order,same,rfl⟩ := answer
  exact (List.mem_filter.mp (same.mem_iff.mp (List.mem_of_mem_take listed))).2

/-- The conditions of both queries on the columns that the replay filters by. -/
def Selected (db : Database) (payments : List Payment) (filter : DlqFilterParams) (row : DeadLetter) : Prop :=
  (∀ channel, given filter.channel = some channel → row.channel = channel) ∧
    (∀ destination, given filter.destination = some destination → contains db destination row = true) ∧
    ∀ walletId, given filter.walletId = some walletId → ofWallet payments walletId row = true

theorem given_all {α : Type} {o : Option α} {p : α → DeadLetter → Bool} {row : DeadLetter} :
    ((o.map p).all fun q => q row) = true ↔ ∀ a, o = some a → p a row = true := by
  cases o <;> simp

theorem replay_selects (payments : List Payment) (filter : DlqFilterParams) (actorUserId : Option String) :
    ∃ w, replayWhere db payments ⟨[],some filter,actorUserId,false⟩ = .ok w ∧
      ∀ row, selects w row = true ↔ Selected db payments filter row ∧ row.status ≠ "suppressed" := by
  refine ⟨_,rfl,fun row => ?_⟩
  rw [if_neg (by simp),selects_set,Bool.and_eq_true,decide_eq_true_eq]
  refine and_congr_left fun _ => ?_
  -- The condition on the status is written over, so it counts no more.
  let w := assign (.empty : Where DeadLetter) "channel" ((given filter.channel).map fun channel row => decide (row.channel = channel))
  let w' := assign w "destination" ((given filter.destination).map (contains db))
  have same : ∀ k, ((assign (assign (assign w "status" ((given filter.status).map fun status row => decide (row.status = status)))
      "destination" ((given filter.destination).map (contains db))) "payment"
      ((given filter.walletId).map (ofWallet payments))).delete "status").get k =
      (assign w' "payment" ((given filter.walletId).map (ofWallet payments))).get k := by
    intro k
    simp only [get_delete,get_assign,w,w',get_empty]
    by_cases status : k = "status"
    · simp [status]
    · simp [status]
  rw [selects_congr same,selects_assign (by simp [w,w',get_assign]),selects_assign (by simp [w,get_assign]),
    selects_assign (by simp)]
  simp only [selects_empty,Bool.true_and,Bool.and_eq_true,given_all,decide_eq_true_eq,Selected,and_assoc]

theorem inspect_selects (payments : List Payment) (filter : DlqFilterParams) (row : DeadLetter) :
    Inspected db r payments filter row ↔ Selected db payments filter row ∧
      (∀ status, given filter.status = some status → row.status = status) ∧
      (∀ failureClass, given filter.failureClass = some failureClass → row.failureClass = failureClass) ∧
      (∃ first, bound r filter.fromDate = some first ∧ ∀ d, first = some d → d.ms ≤ row.failedAt.ms) ∧
      ∃ last, bound r filter.toDate = some last ∧ ∀ d, last = some d → row.failedAt.ms ≤ d.ms := by
  have dates : ∀ dates, selects (assign (assign (assign (assign (assign (assign (.empty : Where DeadLetter) "channel"
      ((given filter.channel).map fun channel row => decide (row.channel = channel)))
      "status" ((given filter.status).map fun status row => decide (row.status = status)))
      "destination" ((given filter.destination).map (contains db)))
      "failureClass" ((given filter.failureClass).map fun failureClass row => decide (row.failureClass = failureClass)))
      "payment" ((given filter.walletId).map (ofWallet payments))) "failedAt" dates) row = true ↔
      Selected db payments filter row ∧ (∀ status, given filter.status = some status → row.status = status) ∧
      (∀ failureClass, given filter.failureClass = some failureClass → row.failureClass = failureClass) ∧
      (dates.all fun q => q row) = true := by
    intro dates
    rw [selects_assign (by simp [get_assign]),selects_assign (by simp [get_assign]),selects_assign (by simp [get_assign]),
      selects_assign (by simp [get_assign]),selects_assign (by simp [get_assign]),selects_assign (by simp)]
    simp only [selects_empty,Bool.true_and,Bool.and_eq_true,given_all,decide_eq_true_eq,Selected]
    tauto
  have between : (∃ dates, failedAtBetween r filter.fromDate filter.toDate = some dates ∧ (dates.all fun q => q row) = true) ↔
      (∃ first, bound r filter.fromDate = some first ∧ ∀ d, first = some d → d.ms ≤ row.failedAt.ms) ∧
      ∃ last, bound r filter.toDate = some last ∧ ∀ d, last = some d → row.failedAt.ms ≤ d.ms := by
    unfold failedAtBetween
    rcases bound r filter.fromDate with _ | _ | first <;> rcases bound r filter.toDate with _ | _ | last <;> simp
  rw [← between]
  simp only [Inspected,inspectWhere,Option.map_eq_some_iff,exists_exists_and_eq_and,dates]
  constructor
  · rintro ⟨dates,is,selected,status,failureClass,inside⟩
    exact ⟨selected,status,failureClass,dates,is,inside⟩
  · rintro ⟨selected,status,failureClass,dates,is,inside⟩
    exact ⟨dates,is,selected,status,failureClass,inside⟩

/-- Replays by a filter, without force, of what the filter shows: in every store, whatever the database and the queue
    answer, the dead letter of every job that is queued is one that the inspection selects and is not suppressed. -/
def ReplaysInspected (db : Database) (r : Runtime) (t : Texts) (filter : DlqFilterParams) : Prop :=
  ∀ (now : Date) (store : Store) (actorUserId : Option String) (find : Where DeadLetter → List DeadLetter)
    (outcome : DeadLetter → Outcome) (replay : Replay), (∀ w, Found w store.deadLetters.rows 500 (find w)) →
    replayJobs db t now store ⟨[],some filter,actorUserId,false⟩ find outcome = .ok replay →
    ∀ job ∈ replay.queued, Inspected db r store.payments.rows filter job.deadLetter ∧ job.deadLetter.status ≠ "suppressed"

theorem queued_selected {now : Date} {store : Store} {filter : DlqFilterParams} {find : Where DeadLetter → List DeadLetter}
    {replay : Replay} (answers : ∀ w, Found w store.deadLetters.rows 500 (find w))
    (replayed : replayJobs db t now store ⟨[],some filter,actorUserId,false⟩ find outcome = .ok replay) {job : QueuedJob}
    (queued : job ∈ replay.queued) :
    Selected db store.payments.rows filter job.deadLetter ∧ job.deadLetter.status ≠ "suppressed" := by
  obtain ⟨w,is,selects_⟩ := @replay_selects db store.payments.rows filter actorUserId
  rw [replayJobs,is] at replayed
  obtain rfl := Except.ok.inj replayed
  rcases replayed_found queued with start | found
  · cases start
  · exact (selects_ _).mp (found_selected (answers w) found)

/-- A payload that a job can be made of. -/
def samplePayload : Json := .object [("walletId",.string "w"),("txHash",.string "h"),("paymentId",.string "p"),("amount",.string "1")]

def sampleDeadLetter (filter : DlqFilterParams) (status failureClass : String) (failedAt : Date) : DeadLetter :=
  ⟨"dl",none,some "payment",(given filter.channel).getD "webhook",some ((given filter.destination).getD ""),
    some samplePayload,status,failureClass,0,failedAt⟩

def sampleStore (filter : DlqFilterParams) (row : DeadLetter) : Store :=
  ⟨⟨[⟨"payment",(given filter.walletId).getD "wallet"⟩],List.pairwise_singleton ..⟩,⟨[row],List.pairwise_singleton ..⟩⟩

theorem sample_selected {filter : DlqFilterParams} (itself : ∀ text, db.contains text text = true)
    (status failureClass : String) (failedAt : Date) :
    Selected db (sampleStore filter (sampleDeadLetter filter status failureClass failedAt)).payments.rows filter
      (sampleDeadLetter filter status failureClass failedAt) := by
  refine ⟨fun channel is => ?_,fun destination is => ?_,fun walletId is => ?_⟩
  · simp [sampleDeadLetter,is]
  · simp [sampleDeadLetter,is,contains,itself]
  · simp [sampleDeadLetter,sampleStore,is,ofWallet]

theorem sample_inspected {filter : DlqFilterParams} (itself : ∀ text, db.contains text text = true)
    (keeps : ReplaysInspected db r t filter) {status : String} (failureClass : String) (shown : status ≠ "suppressed")
    (failedAt : Date) :
    Inspected db r (sampleStore filter (sampleDeadLetter filter status failureClass failedAt)).payments.rows filter
      (sampleDeadLetter filter status failureClass failedAt) := by
  have selected := @sample_selected db filter itself status failureClass failedAt
  generalize rowIs : sampleDeadLetter filter status failureClass failedAt = row at selected ⊢
  obtain ⟨w,is,selects_⟩ := @replay_selects db (sampleStore filter row).payments.rows filter none
  have one : selects w row = true := (selects_ row).mpr ⟨selected,by rw [← rowIs]; exact shown⟩
  have found : ((sampleStore filter row).deadLetters.rows.filter (selects w)).take 500 = [row] := by
    simp [sampleStore,one]
  obtain ⟨data,read⟩ : ∃ data, toAlertJobData t failedAt row.payload = .ok (some data) := by
    rw [← rowIs]
    exact ⟨_,rfl⟩
  have run : replayJobs db t failedAt (sampleStore filter row) ⟨[],some filter,none,false⟩
      (fun w => ((sampleStore filter row).deadLetters.rows.filter (selects w)).take 500) (fun _ => .notStored) =
      .ok ⟨[⟨row,data,replayJobId failedAt row⟩],[],[row.id],(sampleStore filter row).deadLetters,[]⟩ := by
    rw [replayJobs,is]
    show Except.ok ((((sampleStore filter row).deadLetters.rows.filter (selects w)).take 500).foldl
      (replayOne t failedAt none fun _ => .notStored) ⟨[],[],[],(sampleStore filter row).deadLetters,[]⟩) = _
    rw [found]
    simp [replayOne,read]
  exact (keeps failedAt (sampleStore filter row) none _ _ _ (fun w => ⟨_,List.Perm.refl _,rfl⟩) run
    ⟨row,data,replayJobId failedAt row⟩ (List.mem_singleton.mpr rfl)).1

/-- What is replayed by a filter is what the inspection shows if and only if the filter is of those without a status, a
    class and a date that leaves something out. -/
theorem replay_inspected_iff (db : Database) (itself : ∀ text, db.contains text text = true) (r : Runtime) (t : Texts)
    (filter : DlqFilterParams) : ReplaysInspected db r t filter ↔ Unnarrowed r filter := by
  constructor
  · intro keeps
    have shows := fun (status failureClass : String) (shown : status ≠ "suppressed") (failedAt : Date) =>
      (inspect_selects _ filter _).mp (sample_inspected itself keeps failureClass shown failedAt)
    refine ⟨?_,?_,?_,?_⟩
    · cases asked : given filter.status with
      | none => rfl
      | some status =>
        -- A dead letter of another status is replayed too.
        by_cases pending : status = "pending"
        · have shown : "retried" = status := (shows "retried" "permanent" (by decide) ⟨0,by omega⟩).2.1 status asked
          rw [pending] at shown
          exact absurd shown (by decide)
        · have shown := (shows "pending" "permanent" (by decide) ⟨0,by omega⟩).2.1 status asked
          exact absurd shown.symm pending
    · cases asked : given filter.failureClass with
      | none => rfl
      | some failureClass =>
        by_cases permanent : failureClass = "permanent"
        · have shown : "retryable" = failureClass :=
            (shows "pending" "retryable" (by decide) ⟨0,by omega⟩).2.2.1 failureClass asked
          rw [permanent] at shown
          exact absurd shown (by decide)
        · have shown := (shows "pending" "permanent" (by decide) ⟨0,by omega⟩).2.2.1 failureClass asked
          exact absurd shown.symm permanent
    · obtain ⟨first,firstIs,early⟩ := (shows "pending" "permanent" (by decide) ⟨-8640000000000000,by omega⟩).2.2.2.1
      refine ⟨first,firstIs,fun d is => ?_⟩
      have below : d.ms ≤ -8640000000000000 := early d is
      have inRange := d.inRange
      omega
    · obtain ⟨last,lastIs,late⟩ := (shows "pending" "permanent" (by decide) ⟨8640000000000000,by omega⟩).2.2.2.2
      refine ⟨last,lastIs,fun d is => ?_⟩
      have above : 8640000000000000 ≤ d.ms := late d is
      have inRange := d.inRange
      omega
  · rintro ⟨status,failureClass,⟨first,firstIs,early⟩,last,lastIs,late⟩
    intro now store actorUserId find outcome replay answers replayed job queued
    obtain ⟨selected,shown⟩ := queued_selected answers replayed queued
    have inRange := job.deadLetter.failedAt.inRange
    refine ⟨(inspect_selects _ filter _).mpr ⟨selected,?_,?_,⟨first,firstIs,fun d is => ?_⟩,last,lastIs,fun d is => ?_⟩,shown⟩
    · simp [status]
    · simp [failureClass]
    · have at_ := early d is
      omega
    · have at_ := late d is
      omega

end

theorem byCodePoint_itself (text : String) : byCodePoint.contains text text = true := by
  refine List.any_eq_true.mpr ⟨text.toList.map Char.toLower,(List.mem_tails _ _).mpr (List.suffix_refl _),?_⟩
  exact List.isPrefixOf_iff_prefix.mpr (List.prefix_refl _)

def channelFilter (status : Option String) : DlqFilterParams :=
  ⟨none,none,some "webhook",status,none,none,none,none,none⟩
def plainTexts : Texts := ⟨fun _ => .nan,fun _ => "NaN",fun text => text⟩

theorem replay_inspected_channel : ReplaysInspected byCodePoint CursorCodec.bareRuntime plainTexts (channelFilter none) :=
  (replay_inspected_iff byCodePoint byCodePoint_itself CursorCodec.bareRuntime plainTexts (channelFilter none)).mpr
    ⟨rfl,rfl,⟨none,rfl,fun _ is => nomatch is⟩,none,rfl,fun _ is => nomatch is⟩

/-- A filter by status replays dead letters of another status. -/
theorem status_written_over :
    ¬ReplaysInspected byCodePoint CursorCodec.bareRuntime plainTexts (channelFilter (some "pending")) := by
  intro keeps
  have shown := sample_inspected byCodePoint_itself keeps "permanent" (by decide : "retried" ≠ "suppressed") ⟨0,by omega⟩
  have same := ((inspect_selects _ _ _).mp shown).2.1 "pending" rfl
  exact absurd same (by decide)

end StellarAlerts.DlqReplay
