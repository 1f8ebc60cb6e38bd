import Mathlib.Algebra.Group.Nat.Defs
import StellarAlerts.Histories
import StellarAlerts.RemoteCalls
import Mathlib.Data.List.Sort

/-!
The outbox relay. A processed event was always relayed and no event is lost, but the
update after a failure asks for no status: a processed event stays processed exactly as
long as no such update reaches it (`relay_safe_iff`).
-/
namespace StellarAlerts.OutboxRelay
open Histories RemoteCalls

variable {Payload : Type}

def PAYMENT_CHANNEL : String := "stellar-alerts:payments"
def BATCH_SIZE : Nat := 50
def LOCK_TIMEOUT_MS : Nat := 60000

inductive Status where
  | pending
  | processing
  | processed
deriving DecidableEq, Repr

structure OutboxEvent (Payload : Type) where
  id : String
  eventType : String
  payload : Payload
  status : Status
  attempts : Nat
  availableAt : Nat
  lockedAt : Option Nat
  processedAt : Option Nat
  lastError : Option String
  createdAt : Nat

/-- A row as `outboxService.record` creates it. -/
def OutboxEvent.new (id eventType : String) (payload : Payload) (now : Nat) : OutboxEvent Payload :=
  ⟨id,eventType,payload,.pending,0,now,none,none,none,now⟩

def nextAttempt (date attempts : Nat) : Nat := date + min 60000 (1000 * 2 ^ min attempts 6)

/-- `updateMany({ where, data })`. -/
def updateMany (matching : OutboxEvent Payload → Bool) (data : OutboxEvent Payload → OutboxEvent Payload)
    (rows : List (OutboxEvent Payload)) : List (OutboxEvent Payload) :=
  rows.map fun row => if matching row then data row else row

/-- The stale claims are taken back. -/
def resetStale (staleBefore : Nat) : List (OutboxEvent Payload) → List (OutboxEvent Payload) :=
  updateMany (fun row => row.status == .processing && row.lockedAt.any (· < staleBefore))
    fun row => { row with status := .pending, lockedAt := none }

/-- The pending events that are due, the oldest first. -/
def findCandidates (date : Nat) (rows : List (OutboxEvent Payload)) : List (OutboxEvent Payload) :=
  ((rows.filter fun row => row.status == .pending && row.availableAt ≤ date).insertionSort fun a b =>
    a.createdAt ≤ b.createdAt).take BATCH_SIZE

def claimable (id : String) (row : OutboxEvent Payload) : Bool := row.id == id && row.status == .pending

def claim (id : String) (date : Nat) : List (OutboxEvent Payload) → List (OutboxEvent Payload) :=
  updateMany (claimable id) fun row =>
    { row with status := .processing, lockedAt := some date, attempts := row.attempts + 1 }

def markProcessed (id : String) (date : Nat) : List (OutboxEvent Payload) → List (OutboxEvent Payload) :=
  updateMany (fun row => row.id == id) fun row =>
    { row with status := .processed, processedAt := some date, lockedAt := none }

/-- The update of the `catch` block. -/
def scheduleRetry (event : OutboxEvent Payload) (date : Nat) (message : String) :
    List (OutboxEvent Payload) → List (OutboxEvent Payload) :=
  updateMany (fun row => row.id == event.id) fun row =>
    { row with status := .pending, availableAt := nextAttempt date event.attempts, lockedAt := none,
               lastError := some message }

/-- What relaying an event sends; the payload goes out with the id of the event. -/
inductive Relayed (Payload : Type) where
  | enqueuePaymentAlertStrict (payload : Payload) (eventId : String)
  | publish (channel : String) (payload : Payload) (eventId : String)

def Relayed.eventId : Relayed Payload → String
  | .enqueuePaymentAlertStrict _ eventId => eventId
  | .publish _ _ eventId => eventId

/-- `relayEvent`, where the queue or the channel answers. -/
def relayEvent (event : OutboxEvent Payload) (answer : Except String Unit) : Except String (Relayed Payload) :=
  if event.eventType == "payment.alert" then
    answer.map fun _ => .enqueuePaymentAlertStrict event.payload event.id
  else if event.eventType == "payment.realtime" then
    answer.map fun _ => .publish PAYMENT_CHANNEL event.payload event.id
  else .error ("Unknown outbox event type: " ++ event.eventType)

/-- Where a worker stands in `relayOutboxBatch`. -/
inductive Phase (Payload : Type) where
  | idle
  | resetting (staleBefore : Nat)
  | listing
  | claiming (candidate : OutboxEvent Payload) (rest claimed : List (OutboxEvent Payload))
  | relaying (event : OutboxEvent Payload) (rest : List (OutboxEvent Payload))
  | acknowledging (event : OutboxEvent Payload) (rest : List (OutboxEvent Payload))
  | failing (event : OutboxEvent Payload) (rest : List (OutboxEvent Payload)) (message : String)

/-- The next event of the batch, if there is one. -/
def Phase.relay : List (OutboxEvent Payload) → Phase Payload
  | [] => .idle
  | event :: rest => .relaying event rest

/-- The next candidate, if there is one, else the first event that was claimed. -/
def Phase.claim (claimed : List (OutboxEvent Payload)) : List (OutboxEvent Payload) → Phase Payload
  | [] => .relay claimed
  | candidate :: rest => .claiming candidate rest claimed

structure System (Payload : Type) where
  outboxEvent : List (OutboxEvent Payload)
  relayed : List (Relayed Payload)
  workers : Nat → Phase Payload

def System.start : System Payload := ⟨[],[],fun _ => .idle⟩
def System.put (s : System Payload) (w : Nat) (phase : Phase Payload) : System Payload :=
  { s with workers := fun v => if v = w then phase else s.workers v }
def System.write (s : System Payload) (rows : List (OutboxEvent Payload)) : System Payload :=
  { s with outboxEvent := rows }

/-- `date` is what the worker's clock shows when it makes the query. -/
inductive Event (Payload : Type) where
  | record (id eventType : String) (payload : Payload) (now : Nat)
  | poll (w : Nat) (date : Nat)
  | query (w : Nat) (date : Nat) (outcome : Outcome)
  | relay (w : Nat) (answer : Except String Unit)
  | exit (w : Nat)

/-- The query that a worker is at. An error in `claimBatch` or in the `catch` block
    ends the batch, one in the `try` block leads to the `catch` block. -/
def System.query (s : System Payload) (w : Nat) (date : Nat) (outcome : Outcome) : Phase Payload → System Payload
  | .resetting staleBefore =>
    (s.write (outcome.write (resetStale staleBefore) s.outboxEvent)).put w
      (if outcome.error.isNone then .listing else .idle)
  | .listing =>
    s.put w (if outcome.error.isNone then .claim [] (findCandidates date s.outboxEvent) else .idle)
  | .claiming candidate rest claimed =>
    let count := s.outboxEvent.countP (claimable candidate.id)
    (s.write (outcome.write (claim candidate.id date) s.outboxEvent)).put w
      (if outcome.error.isNone then .claim (if count = 1 then claimed ++ [candidate] else claimed) rest else .idle)
  | .acknowledging event rest =>
    (s.write (outcome.write (markProcessed event.id date) s.outboxEvent)).put w
      (match outcome.error with
      | none => .relay rest
      | some message => .failing event rest message)
  | .failing event rest message =>
    (s.write (outcome.write (scheduleRetry event date message) s.outboxEvent)).put w
      (if outcome.error.isNone then .relay rest else .idle)
  | _ => s

def step (s : System Payload) : Event Payload → Unit × System Payload
  | .record id eventType payload now =>
    if s.outboxEvent.any (fun row => row.id == id) then ((),s)
    else ((),s.write (s.outboxEvent ++ [.new id eventType payload now]))
  | .poll w date =>
    match s.workers w with
    | .idle => ((),s.put w (.resetting (date - LOCK_TIMEOUT_MS)))
    | _ => ((),s)
  | .query w date outcome => ((),s.query w date outcome (s.workers w))
  | .relay w answer =>
    match s.workers w with
    | .relaying event rest =>
      match relayEvent event answer with
      | .ok sent => ((),{ s with relayed := s.relayed ++ [sent] }.put w (.acknowledging event rest))
      | .error message => ((),s.put w (.failing event rest message))
    | _ => ((),s)
  | .exit w => ((),s.put w .idle)

@[simp] theorem put_outboxEvent (s : System Payload) (w : Nat) (phase : Phase Payload) :
    (s.put w phase).outboxEvent = s.outboxEvent := rfl
@[simp] theorem put_relayed (s : System Payload) (w : Nat) (phase : Phase Payload) :
    (s.put w phase).relayed = s.relayed := rfl
@[simp] theorem write_outboxEvent (s : System Payload) (rows : List (OutboxEvent Payload)) :
    (s.write rows).outboxEvent = rows := rfl
@[simp] theorem write_relayed (s : System Payload) (rows : List (OutboxEvent Payload)) :
    (s.write rows).relayed = s.relayed := rfl
@[simp] theorem write_workers (s : System Payload) (rows : List (OutboxEvent Payload)) :
    (s.write rows).workers = s.workers := rfl

variable {data : OutboxEvent Payload → OutboxEvent Payload}

theorem mem_updateMany {matching : OutboxEvent Payload → Bool} {rows : List (OutboxEvent Payload)} {row : OutboxEvent Payload} :
    row ∈ updateMany matching data rows ↔ ∃ old ∈ rows, (if matching old then data old else old) = row :=
  List.mem_map

/-- What a step makes of the rows. -/
inductive Rewrite (s : System Payload) : Event Payload → List (OutboxEvent Payload) → Prop where
  | same (input : Event Payload) : Rewrite s input s.outboxEvent
  | recorded (id eventType : String) (payload : Payload) (now : Nat) :
    Rewrite s (.record id eventType payload now) (s.outboxEvent ++ [.new id eventType payload now])
  | reset (w date : Nat) (outcome : Outcome) (staleBefore : Nat) :
    Rewrite s (.query w date outcome) (resetStale staleBefore s.outboxEvent)
  | claimed (w date : Nat) (outcome : Outcome) (id : String) :
    Rewrite s (.query w date outcome) (claim id date s.outboxEvent)
  | acknowledged {w : Nat} (date : Nat) (outcome : Outcome) {event : OutboxEvent Payload}
    {rest : List (OutboxEvent Payload)} (stands : s.workers w = .acknowledging event rest) :
    Rewrite s (.query w date outcome) (markProcessed event.id date s.outboxEvent)
  | retried {w : Nat} (date : Nat) {outcome : Outcome} {event : OutboxEvent Payload}
    {rest : List (OutboxEvent Payload)} {message : String} (stands : s.workers w = .failing event rest message)
    (applied : outcome.applied = true) :
    Rewrite s (.query w date outcome) (scheduleRetry event date message s.outboxEvent)

theorem query_rewrite (s : System Payload) (w date : Nat) (outcome : Outcome) :
    Rewrite s (.query w date outcome) (s.query w date outcome (s.workers w)).outboxEvent := by
  cases phase : s.workers w with
  | idle => exact .same _
  | listing => exact .same _
  | relaying event rest => exact .same _
  | resetting staleBefore =>
    simp only [System.query,put_outboxEvent,write_outboxEvent,Outcome.write]
    split
    · exact .reset ..
    · exact .same _
  | claiming candidate rest claimed =>
    simp only [System.query,put_outboxEvent,write_outboxEvent,Outcome.write]
    split
    · exact .claimed ..
    · exact .same _
  | acknowledging event rest =>
    simp only [System.query,put_outboxEvent,write_outboxEvent,Outcome.write]
    split
    · exact .acknowledged date outcome phase
    · exact .same _
  | failing event rest message =>
    simp only [System.query,put_outboxEvent,write_outboxEvent,Outcome.write]
    split
    next applied => exact .retried date phase applied
    next => exact .same _

theorem step_rewrite (s : System Payload) (input : Event Payload) : Rewrite s input (step s input).2.outboxEvent := by
  cases input with
  | record id eventType payload now =>
    by_cases taken : s.outboxEvent.any (fun row => row.id == id) = true
    · simp only [step,taken,↓reduceIte]
      exact .same _
    · simp only [step,taken]
      exact .recorded ..
  | poll w date =>
    cases phase : s.workers w <;> simp only [step,phase] <;> exact .same _
  | query w date outcome => exact query_rewrite s w date outcome
  | relay w answer =>
    cases phase : s.workers w with
    | relaying event rest =>
      cases sent : relayEvent event answer <;> simp only [step,phase,sent] <;> exact .same _
    | _ =>
      simp only [step,phase]
      exact .same _
  | exit w => exact .same _

/-- A relay of the event was answered. -/
def Sent (relayed : List (Relayed Payload)) (id : String) : Prop := ∃ sent ∈ relayed, sent.eventId = id

variable {relayed : List (Relayed Payload)}

theorem sent_mono {more : List (Relayed Payload)} (kept : relayed ⊆ more) {id : String} (sent : Sent relayed id) :
    Sent more id := by
  obtain ⟨one,member,same⟩ := sent
  exact ⟨one,kept member,same⟩

theorem query_relayed (s : System Payload) (w date : Nat) (outcome : Outcome) (phase : Phase Payload) :
    (s.query w date outcome phase).relayed = s.relayed := by
  cases phase <;> rfl

theorem relayEvent_id {event : OutboxEvent Payload} {answer : Except String Unit} {sent : Relayed Payload}
    (relayed : relayEvent event answer = .ok sent) : sent.eventId = event.id := by
  unfold relayEvent at relayed
  cases answer with
  | error message =>
    simp only [Except.map] at relayed
    split at relayed
    · cases relayed
    · split at relayed <;> cases relayed
  | ok answered =>
    simp only [Except.map] at relayed
    split at relayed
    · cases relayed; rfl
    · split at relayed
      · cases relayed; rfl
      · cases relayed

theorem step_relayed (s : System Payload) (input : Event Payload) : s.relayed ⊆ (step s input).2.relayed := by
  cases input with
  | record id eventType payload now =>
    by_cases taken : s.outboxEvent.any (fun row => row.id == id) = true <;> simp [step,taken]
  | poll w date => cases phase : s.workers w <;> simp [step,phase]
  | query w date outcome => simp [step,query_relayed]
  | relay w answer =>
    cases phase : s.workers w with
    | relaying event rest => cases sent : relayEvent event answer <;> simp [step,phase,sent]
    | _ => simp [step,phase]
  | exit w => simp [step]

@[simp] theorem put_self (s : System Payload) (w : Nat) (phase : Phase Payload) : (s.put w phase).workers w = phase := by
  simp [System.put]

variable {v : Nat}

theorem put_other (s : System Payload) {w : Nat} (other : v ≠ w) (phase : Phase Payload) :
    (s.put w phase).workers v = s.workers v := by
  simp [System.put,other]

/-- A phase from which the worker marks its event processed next. -/
def Phase.Acknowledges (phase : Phase Payload) (id : String) : Prop :=
  ∃ event rest, phase = .acknowledging event rest ∧ event.id = id

theorem relay_acknowledges (events : List (OutboxEvent Payload)) (id : String) : ¬ (Phase.relay events).Acknowledges id := by
  rintro ⟨event,rest,same,_⟩
  cases events <;> cases same

theorem claim_acknowledges (claimed candidates : List (OutboxEvent Payload)) (id : String) :
    ¬ (Phase.claim claimed candidates).Acknowledges id := by
  cases candidates with
  | nil => exact relay_acknowledges claimed id
  | cons candidate rest => rintro ⟨event,rest,same,_⟩; cases same

theorem query_acknowledges (s : System Payload) (w date : Nat) (outcome : Outcome) (id : String) :
    ¬ ((s.query w date outcome (s.workers w)).workers w).Acknowledges id := by
  cases phase : s.workers w with
  | idle => rintro ⟨event,rest,same,_⟩; simp [System.query,phase] at same
  | relaying event rest => rintro ⟨event,rest,same,_⟩; simp [System.query,phase] at same
  | resetting staleBefore =>
    simp only [System.query,put_self]
    split <;> rintro ⟨event,rest,same,_⟩ <;> cases same
  | listing =>
    simp only [System.query,put_self]
    split
    · exact claim_acknowledges _ _ id
    · rintro ⟨event,rest,same,_⟩; cases same
  | claiming candidate rest claimed =>
    simp only [System.query,put_self]
    split
    · exact claim_acknowledges _ _ id
    · rintro ⟨event,rest,same,_⟩; cases same
  | acknowledging event rest =>
    simp only [System.query,put_self]
    split
    · exact relay_acknowledges _ id
    · rintro ⟨event,rest,same,_⟩; cases same
  | failing event rest message =>
    simp only [System.query,put_self]
    split
    · exact relay_acknowledges _ id
    · rintro ⟨event,rest,same,_⟩; cases same

theorem query_other (s : System Payload) {w : Nat} (other : v ≠ w) (date : Nat) (outcome : Outcome) (phase : Phase Payload) :
    (s.query w date outcome phase).workers v = s.workers v := by
  cases phase <;> simp [System.query,put_other _ other]

variable {s : System Payload}

theorem step_acknowledges {input : Event Payload} {id : String} (stands : ((step s input).2.workers v).Acknowledges id) :
    (s.workers v).Acknowledges id ∨ Sent (step s input).2.relayed id := by
  have moved : ∀ {w : Nat} {phase : Phase Payload}, ¬ phase.Acknowledges id →
      ((s.put w phase).workers v).Acknowledges id → (s.workers v).Acknowledges id := by
    intro w phase quiet holds
    by_cases own : v = w
    · rw [own,put_self] at holds
      exact absurd holds quiet
    · rwa [put_other s own] at holds
  cases input with
  | record id' eventType payload now =>
    left
    by_cases taken : s.outboxEvent.any (fun row => row.id == id') = true <;> simpa [step,taken] using stands
  | poll w date =>
    left
    cases phase : s.workers w with
    | idle =>
      simp only [step,phase] at stands
      exact moved (by rintro ⟨event,rest,same,_⟩; cases same) stands
    | _ => simpa only [step,phase] using stands
  | query w date outcome =>
    left
    by_cases own : v = w
    · subst own
      exact absurd stands (query_acknowledges s v date outcome id)
    · simpa only [step,query_other s own] using stands
  | relay w answer =>
    cases phase : s.workers w with
    | relaying event rest =>
      cases sent : relayEvent event answer with
      | error message =>
        left
        simp only [step,phase,sent] at stands
        exact moved (by rintro ⟨event,rest,same,_⟩; cases same) stands
      | ok one =>
        simp only [step,phase,sent] at stands ⊢
        by_cases own : v = w
        · right
          rw [own,put_self] at stands
          obtain ⟨event',rest',same,idIs⟩ := stands
          injection same with same _
          exact ⟨one,by simp,by rw [relayEvent_id sent,same,idIs]⟩
        · left
          rwa [put_other _ own] at stands
    | _ =>
      left
      simpa only [step,phase] using stands
  | exit w =>
    left
    exact moved (by rintro ⟨event,rest,same,_⟩; cases same) stands

/-- A processed event was relayed, and a claimed one carries the time of its claim, by which the claim can be taken back. -/
def RowOk (relayed : List (Relayed Payload)) (row : OutboxEvent Payload) : Prop :=
  (row.status = .processed → Sent relayed row.id) ∧ (row.status = .processing → row.lockedAt.isSome)

/-- Every row is in order, and so is every event that a worker marks processed next. -/
structure Sound (s : System Payload) : Prop where
  rows : ∀ row ∈ s.outboxEvent, RowOk s.relayed row
  acknowledged : ∀ w id, (s.workers w).Acknowledges id → Sent s.relayed id

theorem rowOk_updateMany {rows : List (OutboxEvent Payload)} (ok : ∀ row ∈ rows, RowOk relayed row)
    {matching : OutboxEvent Payload → Bool} (changed : ∀ row, matching row = true → RowOk relayed (data row)) :
    ∀ row ∈ updateMany matching data rows, RowOk relayed row := by
  intro row member
  obtain ⟨old,stored,rfl⟩ := mem_updateMany.mp member
  by_cases matched : matching old = true
  · simpa [matched] using changed old matched
  · simpa [matched] using ok old stored

theorem rowOk_rewrite (sound : Sound s) {input : Event Payload} {rows : List (OutboxEvent Payload)}
    (rewritten : Rewrite s input rows) : ∀ row ∈ rows, RowOk s.relayed row := by
  obtain ⟨ok,acknowledged⟩ := sound
  cases rewritten with
  | same => exact ok
  | recorded id eventType payload now =>
    intro row member
    rw [List.mem_append,List.mem_singleton] at member
    rcases member with old | rfl
    · exact ok row old
    · simp [RowOk,OutboxEvent.new]
  | reset w date outcome staleBefore => exact rowOk_updateMany ok (by simp [RowOk])
  | claimed w date outcome id => exact rowOk_updateMany ok (by simp [RowOk])
  | acknowledged date outcome stands =>
    have sent := acknowledged _ _ ⟨_,_,stands,rfl⟩
    refine rowOk_updateMany ok ?_
    intro row matched
    rw [beq_iff_eq] at matched
    simpa [RowOk,matched] using sent
  | retried date stands applied => exact rowOk_updateMany ok (by simp [RowOk])

theorem sound_step (s : System Payload) (input : Event Payload) (sound : Sound s) : Sound (step s input).2 := by
  have kept := step_relayed s input
  constructor
  · intro row member
    obtain ⟨processed,processing⟩ := rowOk_rewrite sound (step_rewrite s input) row member
    exact ⟨fun is => sent_mono kept (processed is),processing⟩
  · intro w id stands
    rcases step_acknowledges stands with before | sent
    · exact sent_mono kept (sound.acknowledged w id before)
    · exact sent

theorem sound_start : Sound (System.start : System Payload) :=
  ⟨fun _ member => (by cases member),fun _ _ ⟨_,_,same,_⟩ => (by cases same)⟩
def Processed (rows : List (OutboxEvent Payload)) (id : String) : Prop := ∃ row ∈ rows, row.id = id ∧ row.status = .processed

/-- The update after a failure is about to reach an event that is already processed. -/
def LateFailure (s : System Payload) (input : Event Payload) : Prop :=
  ∃ w date outcome event rest message, input = .query w date outcome ∧ outcome.applied = true ∧
    s.workers w = .failing event rest message ∧ Processed s.outboxEvent event.id

/-- What a step of the relay guarantees: processed events were relayed, they stay
    processed, and every event is still there, pending, claimed or processed. -/
structure RelaySafe (t : Transition (System Payload) (Event Payload) Unit) : Prop where
  relayed : ∀ row ∈ t.after.outboxEvent, row.status = .processed → Sent t.after.relayed row.id
  settled : ∀ id, Processed t.before.outboxEvent id → Processed t.after.outboxEvent id
  stored : ∀ row ∈ t.before.outboxEvent, ∃ row' ∈ t.after.outboxEvent, row'.id = row.id
  accounted : ∀ row ∈ t.after.outboxEvent,
    row.status = .pending ∨ (row.status = .processing ∧ row.lockedAt.isSome) ∨ row.status = .processed

theorem processed_updateMany {rows : List (OutboxEvent Payload)} {id : String} (processed : Processed rows id)
    {matching : OutboxEvent Payload → Bool}
    (kept : ∀ row ∈ rows, row.id = id → row.status = .processed → matching row = true → (data row).id = row.id ∧
      (data row).status = .processed) :
    Processed (updateMany matching data rows) id := by
  obtain ⟨row,member,idIs,status⟩ := processed
  refine ⟨_,mem_updateMany.mpr ⟨row,member,rfl⟩,?_⟩
  by_cases matched : matching row = true
  · obtain ⟨sameId,still⟩ := kept row member idIs status matched
    simp only [matched,↓reduceIte]
    exact ⟨sameId.trans idIs,still⟩
  · simp only [matched]
    exact ⟨idIs,status⟩

theorem processed_rewrite {input : Event Payload} {rows : List (OutboxEvent Payload)} (rewritten : Rewrite s input rows)
    (inTime : ¬ LateFailure s input) {id : String} (processed : Processed s.outboxEvent id) : Processed rows id := by
  cases rewritten with
  | same => exact processed
  | recorded id' eventType payload now =>
    obtain ⟨row,member,facts⟩ := processed
    exact ⟨row,List.mem_append_left _ member,facts⟩
  | reset w date outcome staleBefore =>
    exact processed_updateMany processed (by intro row _ _ status; simp [status])
  | claimed w date outcome id' =>
    exact processed_updateMany processed (by intro row _ _ status; simp [claimable,status])
  | acknowledged date outcome stands => exact processed_updateMany processed (fun _ _ _ _ _ => ⟨rfl,rfl⟩)
  | retried date stands applied =>
    refine processed_updateMany processed ?_
    intro row member _ status matched
    rw [beq_iff_eq] at matched
    exact absurd ⟨_,date,_,_,_,_,rfl,applied,stands,row,member,matched,status⟩ inTime

theorem stored_rewrite {input : Event Payload} {rows : List (OutboxEvent Payload)} (rewritten : Rewrite s input rows) :
    ∀ row ∈ s.outboxEvent, ∃ row' ∈ rows, row'.id = row.id := by
  have updated : ∀ (matching : OutboxEvent Payload → Bool) (data : OutboxEvent Payload → OutboxEvent Payload),
      (∀ row, (data row).id = row.id) →
        ∀ row ∈ s.outboxEvent, ∃ row' ∈ updateMany matching data s.outboxEvent, row'.id = row.id := by
    intro matching data same row member
    refine ⟨_,mem_updateMany.mpr ⟨row,member,rfl⟩,?_⟩
    split
    · exact same row
    · rfl
  cases rewritten with
  | same => exact fun row member => ⟨row,member,rfl⟩
  | recorded id eventType payload now => exact fun row member => ⟨row,List.mem_append_left _ member,rfl⟩
  | reset w date outcome staleBefore => exact updated _ _ (fun _ => rfl)
  | claimed w date outcome id => exact updated _ _ (fun _ => rfl)
  | acknowledged date outcome stands => exact updated _ _ (fun _ => rfl)
  | retried date stands applied => exact updated _ _ (fun _ => rfl)

theorem lateFailure_unsettles {input : Event Payload} (late : LateFailure s input) :
    ∃ id, Processed s.outboxEvent id ∧ ¬ Processed (step s input).2.outboxEvent id := by
  obtain ⟨w,date,outcome,event,rest,message,rfl,applied,stands,processed⟩ := late
  refine ⟨event.id,processed,?_⟩
  simp only [step,stands,System.query,put_outboxEvent,write_outboxEvent,Outcome.write,applied,↓reduceIte]
  rintro ⟨row,member,idIs,status⟩
  obtain ⟨old,_,rfl⟩ := mem_updateMany.mp member
  by_cases matched : old.id = event.id
  · simp [matched] at status
  · simp [matched] at idIs

theorem safe_of_sound (sound : Sound s) {input : Event Payload} (inTime : ¬ LateFailure s input) :
    RelaySafe (transition step s input) := by
  obtain ⟨rows,_⟩ := sound_step s input sound
  constructor
  · exact fun row member => (rows row member).1
  · exact fun id => processed_rewrite (step_rewrite s input) inTime
  · exact stored_rewrite (step_rewrite s input)
  · intro row member
    have claimed := (rows row member).2
    cases status : row.status with
    | pending => exact .inl rfl
    | processing => exact .inr (.inl ⟨rfl,claimed status⟩)
    | processed => exact .inr (.inr rfl)

/-- In every run of any workers each step is safe exactly if no update after a failure reaches an event that is already processed. -/
theorem relay_safe_iff (inputs : List (Event Payload)) :
    (∀ t ∈ history step System.start inputs, RelaySafe t) ↔
      ∀ t ∈ history step System.start inputs, ¬ LateFailure t.before t.input := by
  constructor
  · intro safe t member late
    obtain ⟨before,input,rfl⟩ := mem_history member
    obtain ⟨id,processed,lost⟩ := lateFailure_unsettles late
    exact lost ((safe _ member).settled id processed)
  · intro inTime t member
    obtain ⟨before,input,rfl⟩ := mem_history member
    exact safe_of_sound (run_inv sound_step sound_start before) (inTime _ member)

/-- Worker 0 claims an event and stalls; worker 1 takes the stale claim back and relays the event; then the relay of worker 0 fails. -/
def stalledClaim : List (Event Unit) :=
  [.record "e1" "payment.alert" () 0,
   .poll 0 1000,.query 0 1000 .ok,.query 0 1000 .ok,.query 0 1000 .ok,
   .poll 1 70000,.query 1 70000 .ok,.query 1 70000 .ok,.query 1 70000 .ok,.relay 1 (.ok ()),.query 1 70000 .ok,
   .relay 0 (.error "socket hang up")]

/-- Every step of every run is safe. -/
def AlwaysSafe : Prop := ∀ inputs : List (Event Unit), ∀ t ∈ history step System.start inputs, RelaySafe t

theorem stalled_claim_reopens : ¬ AlwaysSafe := by
  intro safe
  have listed : transition step (run step System.start stalledClaim) (.query 0 71000 .ok) ∈
      history step System.start (stalledClaim ++ [.query 0 71000 .ok]) := by
    rw [history_append]
    simp
  have before : Processed (run step System.start stalledClaim).outboxEvent "e1" := by
    unfold Processed
    decide
  have after : ¬ Processed (step (run step System.start stalledClaim) (.query 0 71000 .ok)).2.outboxEvent "e1" := by
    unfold Processed
    decide
  exact after ((safe _ _ listed).settled "e1" before)

end StellarAlerts.OutboxRelay
