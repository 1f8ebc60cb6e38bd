import Mathlib.Algebra.Order.Group.Int
import Mathlib.Data.List.Basic
import StellarAlerts.Histories
import StellarAlerts.Horizon
import StellarAlerts.RemoteCalls

/-!
Polling of the Soroban contracts. The rounds are complete when no batch is missing below
a transfer that they store (`polling_complete`).
-/
namespace StellarAlerts.SorobanPolling
open Histories Horizon RemoteCalls

/-- An entry of a topic list: a string, an object with a symbol, or anything else. -/
inductive Topic where
  | string (text : String)
  | symbol (text : String)
  | other
  deriving DecidableEq, Repr

/-- An event as the RPC returns it; `Value` is what its data carries. -/
structure SorobanRpcEvent (Value : Type) where
  contractId : Option String
  ledger : Option Int
  topic : List Topic
  value : Value
  deriving DecidableEq, Repr

structure EnrichedSorobanEvent (Value : Type) extends SorobanRpcEvent Value where
  ledgerSeq : Int
  deriving DecidableEq, Repr

variable {Value : Type}

def getEventTopicName (event : SorobanRpcEvent Value) : String :=
  match event.topic.head? with
  | some (.string text) => text
  | some (.symbol text) => text
  | _ => "default"

/-- The users of a contract, by topic. -/
structure RegisteredContract where
  topicRoutes : String → Option (List String)

structure Route where
  contractId : String
  topic : String
  userIds : List String
  deriving DecidableEq, Repr

/-- The users of the topic, or those of the topic `default`. -/
def routeEventToUsers (contractRegistry : String → Option RegisteredContract) (event : SorobanRpcEvent Value) :
    List Route :=
  match event.contractId with
  | none => []
  | some contractId =>
    if contractId = "" then []
    else
      match contractRegistry contractId with
      | none => []
      | some contract =>
        let topic := getEventTopicName event
        let routed := (contract.topicRoutes topic).getD []
        let matchedUserIds := if routed = [] then (contract.topicRoutes "default").getD [] else routed
        if matchedUserIds = [] then [] else [⟨contractId,topic,matchedUserIds⟩]

def LEDGER_BATCH_SIZE : Int := 100

/-- A call of `getEvents` and its answer; every event comes with the outcome of the upsert that it leads to. -/
structure Call (Value : Type) where
  contractId : String
  startLedger : Int
  endLedger : Int
  answer : Except String (List (SorobanRpcEvent Value × Outcome))

def Call.failed (call : Call Value) : Bool :=
  match call.answer with
  | .error _ => true
  | .ok _ => false

def Call.events (call : Call Value) : List (SorobanRpcEvent Value × Outcome) :=
  match call.answer with
  | .error _ => []
  | .ok events => events

/-- `evt.ledger ?? currentStart`. -/
def Call.ledgerSeq (call : Call Value) (event : SorobanRpcEvent Value) : Int := event.ledger.getD call.startLedger

def Call.yielded (call : Call Value) : List (EnrichedSorobanEvent Value × Outcome) :=
  (call.events.filter fun entry =>
    call.startLedger ≤ call.ledgerSeq entry.1 ∧ call.ledgerSeq entry.1 ≤ call.endLedger).map
      fun entry => ({ entry.1 with ledgerSeq := call.ledgerSeq entry.1 },entry.2)

/-- The loop of `fetchContractEventsInRange`; the fuel is never the one to end it. -/
def fetchBatches (getEvents : Int → Int → Except String (List (SorobanRpcEvent Value × Outcome)))
    (contractId : String) (endLedger batchSize : Int) : Nat → Int → List (Call Value)
  | 0, _ => []
  | fuel + 1, currentStart =>
    if currentStart ≤ endLedger then
      let batchEnd := min (currentStart + max 1 batchSize - 1) endLedger
      ⟨contractId,currentStart,batchEnd,getEvents currentStart batchEnd⟩ ::
        fetchBatches getEvents contractId endLedger batchSize fuel (batchEnd + 1)
    else []

/-- The calls of `getEvents` over a range of ledgers, in order; a failed one is passed over like any other. -/
def fetchContractEventsInRange (getEvents : Int → Int → Except String (List (SorobanRpcEvent Value × Outcome)))
    (contractId : String) (startLedger endLedger batchSize : Int) : List (Call Value) :=
  fetchBatches getEvents contractId endLedger batchSize (endLedger + 1 - startLedger).toNat startLedger

/-- A stored transfer. -/
structure SorobanEventSnapshot where
  contractId : String
  from_ : String
  to_ : String
  amount : String
  ledgerSeq : Int
  deriving DecidableEq, Repr

structure RoutedSorobanAlert (Value : Type) where
  contractId : String
  topic : String
  userIds : List String
  event : EnrichedSorobanEvent Value

/-- The stored transfers, the calls of `getEvents` so far, the events handed to the
    loop of a contract's rounds and the alerts handed to the channels. -/
structure World (Value : Type) where
  sorobanEventSnapshot : List SorobanEventSnapshot
  calls : List (Call Value)
  handed : List (String × EnrichedSorobanEvent Value)
  dispatched : List (RoutedSorobanAlert Value)

def World.start (rows : List SorobanEventSnapshot) : World Value := ⟨rows,[],[],[]⟩

/-- What a round finds: the answer to `getLatestLedger`, the failure of its query of
    the table, the registry, and the answers to `getEvents` by their range. -/
structure Round (Value : Type) where
  contractId : String
  latestLedger : Except String Int
  findFirst : Option String
  contractRegistry : String → Option RegisteredContract
  getEvents : Int → Int → Except String (List (SorobanRpcEvent Value × Outcome))

/-- A call that fails answers 0. -/
def getSorobanLatestLedger (answer : Except String Int) : Int :=
  match answer with
  | .ok sequence => sequence
  | .error _ => 0

def lastSnapshot (rows : List SorobanEventSnapshot) (contractId : String) : Option Int :=
  ((rows.filter fun row => row.contractId = contractId).map (·.ledgerSeq)).max?

def startLedger (rows : List SorobanEventSnapshot) (contractId : String) (latestLedger : Int) : Int :=
  match lastSnapshot rows contractId with
  | some ledgerSeq => ledgerSeq + 1
  | none => latestLedger - 1000

def Round.calls (round : Round Value) (rows : List SorobanEventSnapshot) : List (Call Value) :=
  let latestLedger := getSorobanLatestLedger round.latestLedger
  if latestLedger = 0 then []
  else if round.findFirst.isSome then []
  else
    let startLedger := startLedger rows round.contractId latestLedger
    if startLedger > latestLedger then []
    else fetchContractEventsInRange round.getEvents round.contractId startLedger latestLedger LEDGER_BATCH_SIZE

/-- `upsert` with an empty update; the columns are those of the unique index. -/
def upsert (row : SorobanEventSnapshot) (rows : List SorobanEventSnapshot) : List SorobanEventSnapshot :=
  if row ∈ rows then rows else rows ++ [row]

variable (decode : SorobanRpcEvent Value → Option SacTransfer)

/-- `decode` reads the topics and the value of an event. -/
def parseSacTransferEvent (event : SorobanRpcEvent Value) : Option SacTransfer :=
  (decode event).map fun transfer => { transfer with contractId := event.contractId.getD "" }

def snapshot (parsed : SacTransfer) (event : EnrichedSorobanEvent Value) : SorobanEventSnapshot :=
  ⟨parsed.contractId,parsed.from_,parsed.to_,parsed.amount,event.ledgerSeq⟩

/-- The loop over the routes of an event: the alert is dispatched, then the transfer is stored; an error of the upsert is logged. -/
def handleRoute (parsed : SacTransfer) (event : EnrichedSorobanEvent Value) (outcome : Outcome) (contractId : String)
    (w : World Value) (route : Route) : World Value :=
  { w with
    dispatched := w.dispatched ++ [⟨contractId,route.topic,route.userIds,event⟩]
    sorobanEventSnapshot := outcome.write (upsert (snapshot parsed event)) w.sorobanEventSnapshot }

/-- The loop over the events of a batch. -/
def handleEvent (round : Round Value) (w : World Value) (entry : EnrichedSorobanEvent Value × Outcome) : World Value :=
  let w := { w with handed := w.handed ++ [(round.contractId,entry.1)] }
  match parseSacTransferEvent decode entry.1.toSorobanRpcEvent with
  | none => w
  | some parsed =>
    (routeEventToUsers round.contractRegistry entry.1.toSorobanRpcEvent).foldl
      (handleRoute parsed entry.1 entry.2 round.contractId) w

def handleBatch (round : Round Value) (w : World Value) (call : Call Value) : World Value :=
  call.yielded.foldl (handleEvent decode round) { w with calls := w.calls ++ [call] }
def processSorobanContractEvents (round : Round Value) (w : World Value) : World Value :=
  (round.calls w.sorobanEventSnapshot).foldl (handleBatch decode round) w

/-- A contract is polled, or another worker stores a row in the table. -/
inductive Input (Value : Type) where
  | poll (round : Round Value)
  | insert (row : SorobanEventSnapshot)

def step (w : World Value) : Input Value → Unit × World Value
  | .poll round => ((),processSorobanContractEvents decode round w)
  | .insert row => ((),{ w with sorobanEventSnapshot := upsert row w.sorobanEventSnapshot })

section Batches
variable {getEvents : Int → Int → Except String (List (SorobanRpcEvent Value × Outcome))} {contractId : String}
  {endLedger batchSize : Int}

theorem fetchBatches_cover {fuel : Nat} {currentStart ledger : Int} (enough : endLedger + 1 - currentStart ≤ fuel)
    (above : currentStart ≤ ledger) (below : ledger ≤ endLedger) :
    ∃ call ∈ fetchBatches getEvents contractId endLedger batchSize fuel currentStart,
      call.startLedger ≤ ledger ∧ ledger ≤ call.endLedger := by
  induction fuel generalizing currentStart with
  | zero => omega
  | succ fuel ih =>
    have within : currentStart ≤ endLedger := by omega
    simp only [fetchBatches,within,if_true]
    by_cases here : ledger ≤ min (currentStart + max 1 batchSize - 1) endLedger
    · exact ⟨_,List.mem_cons_self ..,above,here⟩
    · obtain ⟨call,member,covers⟩ := @ih (min (currentStart + max 1 batchSize - 1) endLedger + 1) (by omega) (by omega)
      exact ⟨call,List.mem_cons_of_mem _ member,covers⟩

theorem fetchBatches_within {fuel : Nat} {currentStart : Int} :
    ∀ call ∈ fetchBatches getEvents contractId endLedger batchSize fuel currentStart,
      currentStart ≤ call.startLedger ∧ call.endLedger ≤ endLedger ∧ call.contractId = contractId := by
  induction fuel generalizing currentStart with
  | zero => simp [fetchBatches]
  | succ fuel ih =>
    intro call member
    rw [fetchBatches] at member
    split at member
    · rcases List.mem_cons.mp member with rfl | later
      · exact ⟨le_refl _,min_le_right _ _,rfl⟩
      · obtain ⟨above,below,own⟩ := ih call later
        exact ⟨by omega,below,own⟩
    · cases member

end Batches

def Round.start (round : Round Value) (rows : List SorobanEventSnapshot) : Int :=
  startLedger rows round.contractId (getSorobanLatestLedger round.latestLedger)

theorem calls_cases (round : Round Value) (rows : List SorobanEventSnapshot) :
    round.calls rows = [] ∨ round.calls rows = fetchContractEventsInRange round.getEvents round.contractId
      (round.start rows) (getSorobanLatestLedger round.latestLedger) LEDGER_BATCH_SIZE := by
  unfold Round.calls
  simp only
  split
  · exact .inl rfl
  · split
    · exact .inl rfl
    · split
      · exact .inl rfl
      · exact .inr rfl

theorem calls_within {round : Round Value} {rows : List SorobanEventSnapshot} {call : Call Value}
    (member : call ∈ round.calls rows) :
    round.start rows ≤ call.startLedger ∧ call.endLedger ≤ getSorobanLatestLedger round.latestLedger ∧
      call.contractId = round.contractId := by
  rcases calls_cases round rows with empty | fetched
  · rw [empty] at member
    cases member
  · rw [fetched] at member
    exact fetchBatches_within call member

theorem calls_cover {round : Round Value} {rows : List SorobanEventSnapshot} {call : Call Value}
    (member : call ∈ round.calls rows) {ledger : Int} (above : round.start rows ≤ ledger) (below : ledger ≤ call.endLedger) :
    ∃ other ∈ round.calls rows, other.startLedger ≤ ledger ∧ ledger ≤ other.endLedger := by
  have last := (calls_within member).2.1
  rcases calls_cases round rows with empty | fetched
  · rw [empty] at member
    cases member
  · rw [fetched]
    exact fetchBatches_cover (by omega) above (by omega)

/-- The row that an event leaves: a transfer with users whose upsert is carried out. -/
def storedRow (round : Round Value) (entry : EnrichedSorobanEvent Value × Outcome) : Option SorobanEventSnapshot :=
  match parseSacTransferEvent decode entry.1.toSorobanRpcEvent with
  | none => none
  | some parsed =>
    if routeEventToUsers round.contractRegistry entry.1.toSorobanRpcEvent ≠ [] ∧ entry.2.applied = true then
      some (snapshot parsed entry.1)
    else none

/-- What a part of a round does: it makes calls and hands events on, every row stays, and a new one is that of an event. -/
structure Effect (round : Round Value) (calls : List (Call Value)) (entries : List (EnrichedSorobanEvent Value × Outcome))
    (w w' : World Value) : Prop where
  calls : w'.calls = w.calls ++ calls
  handed : w'.handed = w.handed ++ entries.map fun entry => (round.contractId,entry.1)
  kept : ∀ row ∈ w.sorobanEventSnapshot, row ∈ w'.sorobanEventSnapshot
  stored : ∀ row ∈ w'.sorobanEventSnapshot, row ∈ w.sorobanEventSnapshot ∨
    ∃ entry ∈ entries, storedRow decode round entry = some row

section Effects
variable {decode} {round : Round Value} {w w' w'' : World Value}

theorem Effect.refl : Effect decode round [] [] w w := ⟨by simp,by simp,fun _ => id,fun _ => .inl⟩

theorem Effect.trans {calls calls' : List (Call Value)} {entries entries' : List (EnrichedSorobanEvent Value × Outcome)}
    (first : Effect decode round calls entries w w') (second : Effect decode round calls' entries' w' w'') :
    Effect decode round (calls ++ calls') (entries ++ entries') w w'' where
  calls := by rw [second.calls,first.calls,List.append_assoc]
  handed := by rw [second.handed,first.handed,List.append_assoc,List.map_append]
  kept row member := second.kept row (first.kept row member)
  stored row member := by
    rcases second.stored row member with old | ⟨entry,listed,stores⟩
    · rcases first.stored row old with older | ⟨entry,listed,stores⟩
      · exact .inl older
      · exact .inr ⟨entry,List.mem_append_left _ listed,stores⟩
    · exact .inr ⟨entry,List.mem_append_right _ listed,stores⟩

theorem mem_upsert {row other : SorobanEventSnapshot} {rows : List SorobanEventSnapshot} :
    other ∈ upsert row rows ↔ other ∈ rows ∨ other = row := by
  unfold upsert
  split
  · rename_i present
    constructor
    · exact .inl
    · rintro (old | rfl)
      · exact old
      · exact present
  · simp

theorem routes_effect (parsed : SacTransfer) (event : EnrichedSorobanEvent Value) (outcome : Outcome)
    (contractId : String) (routes : List Route) (w : World Value) :
    let w' := routes.foldl (handleRoute parsed event outcome contractId) w
    w'.calls = w.calls ∧ w'.handed = w.handed ∧ (∀ row ∈ w.sorobanEventSnapshot, row ∈ w'.sorobanEventSnapshot) ∧
      ∀ row ∈ w'.sorobanEventSnapshot, row ∈ w.sorobanEventSnapshot ∨
        routes ≠ [] ∧ outcome.applied = true ∧ row = snapshot parsed event := by
  induction routes generalizing w with
  | nil => exact ⟨rfl,rfl,fun _ => id,fun _ => .inl⟩
  | cons route rest ih =>
    obtain ⟨calls,handed,kept,stored⟩ := ih (handleRoute parsed event outcome contractId w route)
    have written : ∀ row, row ∈ (handleRoute parsed event outcome contractId w route).sorobanEventSnapshot ↔
        row ∈ w.sorobanEventSnapshot ∨ outcome.applied = true ∧ row = snapshot parsed event := by
      intro row
      simp only [handleRoute,Outcome.write]
      split
      · rename_i applied
        simp [mem_upsert,applied]
      · rename_i unapplied
        simp [unapplied]
    refine ⟨calls,handed,fun row member => kept row ((written row).mpr (.inl member)),?_⟩
    intro row member
    rcases stored row member with old | ⟨_,applied,same⟩
    · rcases (written row).mp old with older | new
      · exact .inl older
      · exact .inr ⟨by simp,new⟩
    · exact .inr ⟨by simp,applied,same⟩

theorem handleEvent_effect (entry : EnrichedSorobanEvent Value × Outcome) :
    Effect decode round [] [entry] w (handleEvent decode round w entry) := by
  unfold handleEvent
  simp only
  split
  · exact ⟨by simp,by simp,fun _ => id,fun _ => .inl⟩
  · rename_i parsed isParsed
    obtain ⟨calls,handed,kept,stored⟩ := routes_effect parsed entry.1 entry.2 round.contractId
      (routeEventToUsers round.contractRegistry entry.1.toSorobanRpcEvent)
      { w with handed := w.handed ++ [(round.contractId,entry.1)] }
    refine ⟨by simpa using calls,by simpa using handed,kept,?_⟩
    intro row member
    rcases stored row member with old | ⟨routed,applied,rfl⟩
    · exact .inl old
    · refine .inr ⟨entry,List.mem_singleton.mpr rfl,?_⟩
      simp only [storedRow,isParsed]
      rw [if_pos ⟨routed,applied⟩]

theorem events_effect (entries : List (EnrichedSorobanEvent Value × Outcome)) (w : World Value) :
    Effect decode round [] entries w (entries.foldl (handleEvent decode round) w) := by
  induction entries generalizing w with
  | nil => exact .refl
  | cons entry rest ih => exact (handleEvent_effect entry).trans (ih (handleEvent decode round w entry))

theorem handleBatch_effect (call : Call Value) : Effect decode round [call] call.yielded w (handleBatch decode round w call) := by
  have made : Effect decode round [call] [] w { w with calls := w.calls ++ [call] } :=
    ⟨rfl,by simp,fun _ => id,fun _ => .inl⟩
  exact made.trans (events_effect call.yielded _)

theorem batches_effect (calls : List (Call Value)) (w : World Value) :
    Effect decode round calls (calls.flatMap Call.yielded) w (calls.foldl (handleBatch decode round) w) := by
  induction calls generalizing w with
  | nil => exact .refl
  | cons call rest ih => exact (handleBatch_effect call).trans (ih (handleBatch decode round w call))

theorem poll_effect (round : Round Value) (w : World Value) :
    Effect decode round (round.calls w.sorobanEventSnapshot) ((round.calls w.sorobanEventSnapshot).flatMap Call.yielded) w
      (processSorobanContractEvents decode round w) :=
  batches_effect (round.calls w.sorobanEventSnapshot) w

end Effects

section Rows
variable {rows : List SorobanEventSnapshot} {contractId : String} {last : Int}

theorem lastSnapshot_mem (found : lastSnapshot rows contractId = some last) :
    ∃ row ∈ rows, row.contractId = contractId ∧ row.ledgerSeq = last := by
  have member := (List.max?_eq_some_iff.mp found).1
  obtain ⟨row,listed,same⟩ := List.mem_map.mp member
  obtain ⟨stored,own⟩ := List.mem_filter.mp listed
  exact ⟨row,stored,by simpa using own,same⟩

theorem le_lastSnapshot (found : lastSnapshot rows contractId = some last) {row : SorobanEventSnapshot}
    (stored : row ∈ rows) (own : row.contractId = contractId) : row.ledgerSeq ≤ last := by
  refine (List.max?_eq_some_iff.mp found).2 row.ledgerSeq (List.mem_map.mpr ⟨row,?_,rfl⟩)
  exact List.mem_filter.mpr ⟨stored,by simpa using own⟩

theorem lastSnapshot_of_mem {row : SorobanEventSnapshot} (stored : row ∈ rows) (own : row.contractId = contractId) :
    ∃ last, lastSnapshot rows contractId = some last ∧ row.ledgerSeq ≤ last := by
  cases found : lastSnapshot rows contractId with
  | none =>
    have empty := List.max?_eq_none_iff.mp found
    have listed : row ∈ rows.filter fun row => row.contractId = contractId :=
      List.mem_filter.mpr ⟨stored,by simpa using own⟩
    rw [List.map_eq_nil_iff.mp empty] at listed
    cases listed
  | some last => exact ⟨last,rfl,le_lastSnapshot found stored own⟩

end Rows

def firstStart (w : World Value) (contractId : String) : Option Int :=
  (w.calls.find? fun call => call.contractId = contractId).map (·.startLedger)

def SorobanRpcEvent.within (event : SorobanRpcEvent Value) (first last : Int) : Bool :=
  event.ledger.any fun ledger => first ≤ ledger ∧ ledger ≤ last

variable (chain : List (SorobanRpcEvent Value))

/-- The call is answered in full: it lists every event of its range that the contract has emitted. -/
def Full (call : Call Value) : Prop :=
  call.failed = false ∧ ∀ event ∈ chain, event.contractId = some call.contractId →
    event.within call.startLedger call.endLedger = true → event ∈ call.events.map Prod.fst

instance [DecidableEq Value] (call : Call Value) : Decidable (Full chain call) :=
  inferInstanceAs (Decidable (call.failed = false ∧ ∀ event ∈ chain, event.contractId = some call.contractId →
    event.within call.startLedger call.endLedger = true → event ∈ call.events.map Prod.fst))

def Covered (calls : List (Call Value)) (contractId : String) (ledger : Int) : Prop :=
  ∃ call ∈ calls, call.contractId = contractId ∧ Full chain call ∧ call.startLedger ≤ ledger ∧ ledger ≤ call.endLedger

/-- The answers to a round: they are about its contract (`own`); every batch up to a transfer that the round stores is answered in full
    (`answered`); and a round that stores the first transfers of its contract starts where earlier answers left off (`caughtUp`). -/
structure Round.Meets (w : World Value) (round : Round Value) : Prop where
  own : ∀ entry ∈ (round.calls w.sorobanEventSnapshot).flatMap Call.yielded,
    entry.1.contractId = some round.contractId
  answered : ∀ entry ∈ (round.calls w.sorobanEventSnapshot).flatMap Call.yielded,
    (storedRow decode round entry).isSome = true →
    ∀ call ∈ round.calls w.sorobanEventSnapshot, call.startLedger ≤ entry.1.ledgerSeq → Full chain call
  caughtUp : lastSnapshot w.sorobanEventSnapshot round.contractId = none →
    ∀ entry ∈ (round.calls w.sorobanEventSnapshot).flatMap Call.yielded, (storedRow decode round entry).isSome = true →
    ∀ first, firstStart w round.contractId = some first →
    ∀ ledger, first ≤ ledger → ledger < round.start w.sorobanEventSnapshot → Covered chain w.calls round.contractId ledger

/-- The same, and no other worker stores a row above the last one of a contract that is polled. -/
def Meets (w : World Value) : Input Value → Prop
  | .poll round => round.Meets decode chain w
  | .insert row => ∀ first, firstStart w row.contractId = some first →
      ∃ last, lastSnapshot w.sorobanEventSnapshot row.contractId = some last ∧ row.ledgerSeq ≤ last

/-- Every event of a contract between the first start and the last ledger has been
    handed on, and a failed batch keeps the last ledger below its range. -/
def Complete (t : Transition (World Value) (Input Value) Unit) : Prop :=
  (∀ contractId first last, firstStart t.after contractId = some first →
    lastSnapshot t.after.sorobanEventSnapshot contractId = some last →
    ∀ event ∈ chain, event.contractId = some contractId → event.within first last = true →
      ∃ entry ∈ t.after.handed, entry.1 = contractId ∧ entry.2.toSorobanRpcEvent = event) ∧
  ∀ round, t.input = .poll round → ∀ call ∈ round.calls t.before.sorobanEventSnapshot, call.failed = true →
    ∀ last, lastSnapshot t.after.sorobanEventSnapshot round.contractId = some last → last < call.startLedger

/-- Batches are handed on, and the ledgers up to the last one are answered. -/
structure Inv (w : World Value) : Prop where
  handed : ∀ call ∈ w.calls, ∀ entry ∈ call.yielded, (call.contractId,entry.1) ∈ w.handed
  covered : ∀ contractId first last, firstStart w contractId = some first →
    lastSnapshot w.sorobanEventSnapshot contractId = some last →
    ∀ ledger, first ≤ ledger → ledger ≤ last → Covered chain w.calls contractId ledger

theorem inv_start (rows : List SorobanEventSnapshot) : Inv chain (World.start rows : World Value) where
  handed := by simp [World.start]
  covered := by simp [firstStart,World.start]

section Steps
variable {decode} {chain} {w w' : World Value} {round : Round Value} {contractId : String} {first last ledger : Int}

theorem Covered.mono {calls : List (Call Value)} (covered : Covered chain calls contractId ledger)
    (more : List (Call Value)) : Covered chain (calls ++ more) contractId ledger := by
  obtain ⟨call,member,covers⟩ := covered
  exact ⟨call,List.mem_append_left _ member,covers⟩

theorem firstStart_append {calls : List (Call Value)} (same : w'.calls = w.calls ++ calls)
    (found : firstStart w' contractId = some first) :
    firstStart w contractId = some first ∨
      firstStart w contractId = none ∧ ∃ call ∈ calls, call.contractId = contractId ∧ call.startLedger = first := by
  unfold firstStart at found ⊢
  rw [same,List.find?_append] at found
  cases earlier : w.calls.find? fun call => call.contractId = contractId with
  | some call =>
    rw [earlier] at found
    exact .inl (by simpa using found)
  | none =>
    rw [earlier] at found
    obtain ⟨call,isFirst,isStart⟩ := Option.map_eq_some_iff.mp found
    have isCall : calls.find? (fun call => call.contractId = contractId) = some call := by simpa using isFirst
    refine .inr ⟨rfl,call,List.mem_of_find?_eq_some isCall,?_,isStart⟩
    simpa using List.find?_some isCall

theorem startLedger_above {rows : List SorobanEventSnapshot} (found : lastSnapshot rows round.contractId = some last) :
    round.start rows = last + 1 := by
  simp [Round.start,startLedger,found]

variable {entry : EnrichedSorobanEvent Value × Outcome}

theorem storedRow_own {row : SorobanEventSnapshot} (own : entry.1.contractId = some round.contractId)
    (stores : storedRow decode round entry = some row) :
    row.contractId = round.contractId ∧ row.ledgerSeq = entry.1.ledgerSeq := by
  unfold storedRow at stores
  split at stores
  · cases stores
  · rename_i parsed isParsed
    split at stores
    · cases stores
      obtain ⟨transfer,_,rfl⟩ := Option.map_eq_some_iff.mp isParsed
      exact ⟨by simp [snapshot,own],rfl⟩
    · cases stores

variable {call : Call Value}

theorem yielded_within (listed : entry ∈ call.yielded) :
    call.startLedger ≤ entry.1.ledgerSeq ∧ entry.1.ledgerSeq ≤ call.endLedger := by
  obtain ⟨raw,inRange,rfl⟩ := List.mem_map.mp listed
  simpa using (List.mem_filter.mp inRange).2

theorem yielded_of_full (full : Full chain call) {event : SorobanRpcEvent Value} (emitted : event ∈ chain)
    (own : event.contractId = some call.contractId) (isLedger : event.ledger = some ledger)
    (above : call.startLedger ≤ ledger) (below : ledger ≤ call.endLedger) :
    ∃ entry ∈ call.yielded, entry.1.toSorobanRpcEvent = event := by
  have listed := full.2 event emitted own (by simp [SorobanRpcEvent.within,isLedger,above,below])
  obtain ⟨raw,member,rfl⟩ := List.mem_map.mp listed
  refine ⟨({ raw.1 with ledgerSeq := call.ledgerSeq raw.1 },raw.2),List.mem_map.mpr ⟨raw,?_,rfl⟩,rfl⟩
  exact List.mem_filter.mpr ⟨member,by simp [Call.ledgerSeq,isLedger,above,below]⟩

theorem old_below_start (round : Round Value) {row : SorobanEventSnapshot} {rows : List SorobanEventSnapshot} (stored : row ∈ rows)
    (own : row.contractId = round.contractId) : row.ledgerSeq < round.start rows := by
  obtain ⟨last,found,below⟩ := lastSnapshot_of_mem stored own
  rw [startLedger_above found]
  omega

theorem Inv.covered_old (inv : Inv chain w) {row : SorobanEventSnapshot} (stored : row ∈ w.sorobanEventSnapshot)
    (known : firstStart w row.contractId = some first) (above : first ≤ ledger) (below : ledger ≤ row.ledgerSeq) :
    Covered chain w.calls row.contractId ledger := by
  obtain ⟨last,found,reaches⟩ := lastSnapshot_of_mem stored rfl
  exact inv.covered row.contractId first last known found ledger above (by omega)

theorem covered_new (meets : round.Meets decode chain w)
    (listed : entry ∈ (round.calls w.sorobanEventSnapshot).flatMap Call.yielded)
    (stores : (storedRow decode round entry).isSome = true) (above : round.start w.sorobanEventSnapshot ≤ ledger)
    (below : ledger ≤ entry.1.ledgerSeq) : Covered chain (round.calls w.sorobanEventSnapshot) round.contractId ledger := by
  obtain ⟨call,member,yielded⟩ := List.mem_flatMap.mp listed
  have within := yielded_within yielded
  obtain ⟨other,otherMember,starts,ends⟩ := calls_cover member above (show ledger ≤ call.endLedger by omega)
  have full := meets.answered entry listed stores other otherMember (by omega)
  exact ⟨other,otherMember,(calls_within otherMember).2.2,full,starts,ends⟩

theorem covered_before (inv : Inv chain w) (meets : round.Meets decode chain w)
    (listed : entry ∈ (round.calls w.sorobanEventSnapshot).flatMap Call.yielded)
    (stores : (storedRow decode round entry).isSome = true) (known : firstStart w round.contractId = some first)
    (above : first ≤ ledger) (below : ledger < round.start w.sorobanEventSnapshot) :
    Covered chain w.calls round.contractId ledger := by
  cases found : lastSnapshot w.sorobanEventSnapshot round.contractId with
  | none => exact meets.caughtUp found entry listed stores first known ledger above below
  | some last =>
    rw [startLedger_above found] at below
    exact inv.covered round.contractId first last known found ledger above (by omega)

theorem handed_poll (inv : Inv chain w) (round : Round Value) :
    ∀ call ∈ (processSorobanContractEvents decode round w).calls, ∀ entry ∈ call.yielded,
      (call.contractId,entry.1) ∈ (processSorobanContractEvents decode round w).handed := by
  have effect : Effect decode round _ _ w _ := poll_effect round w
  intro call member entry listed
  rw [effect.calls] at member
  rw [effect.handed]
  rcases List.mem_append.mp member with old | new
  · exact List.mem_append_left _ (inv.handed call old entry listed)
  · rw [(calls_within new).2.2]
    exact List.mem_append_right _ (List.mem_map.mpr ⟨entry,List.mem_flatMap.mpr ⟨call,new,listed⟩,rfl⟩)

theorem inv_poll (meets : round.Meets decode chain w) (inv : Inv chain w) :
    Inv chain (processSorobanContractEvents decode round w) := by
  have effect : Effect decode round _ _ w _ := poll_effect round w
  refine ⟨handed_poll inv round,?_⟩
  intro contractId first last known found ledger above below
  rw [effect.calls]
  obtain ⟨row,stored,rfl,rfl⟩ := lastSnapshot_mem found
  rcases effect.stored row stored with old | ⟨entry,listed,stores⟩
  · rcases firstStart_append effect.calls known with same | ⟨_,call,member,own,rfl⟩
    · exact (inv.covered_old old same above below).mono _
    · -- the contract is polled for the first time, from the ledger after its last row
      have within := calls_within member
      have start := old_below_start round old (by rw [← own,within.2.2])
      omega
  · obtain ⟨own,atLedger⟩ := storedRow_own (meets.own entry listed) stores
    have isSome : (storedRow decode round entry).isSome = true := by rw [stores]; rfl
    rw [own] at known ⊢
    by_cases before : ledger < round.start w.sorobanEventSnapshot
    · rcases firstStart_append effect.calls known with same | ⟨_,call,member,_,rfl⟩
      · exact (covered_before inv meets listed isSome same above before).mono _
      · have within := calls_within member
        omega
    · obtain ⟨call,member,covers⟩ := covered_new meets listed isSome (by omega) (show ledger ≤ entry.1.ledgerSeq by omega)
      exact ⟨call,List.mem_append_right _ member,covers⟩

theorem inv_insert {row : SorobanEventSnapshot} (meets : Meets decode chain w (.insert row)) (inv : Inv chain w) :
    Inv chain { w with sorobanEventSnapshot := upsert row w.sorobanEventSnapshot } := by
  refine ⟨inv.handed,?_⟩
  intro contractId first last known found ledger above below
  obtain ⟨other,stored,rfl,rfl⟩ := lastSnapshot_mem found
  rcases mem_upsert.mp stored with old | rfl
  · exact inv.covered_old old known above below
  · obtain ⟨last,earlier,reaches⟩ := meets first known
    exact inv.covered other.contractId first last known earlier ledger above (by omega)

theorem inv_step (w : World Value) (input : Input Value) (meets : Meets decode chain w input) (inv : Inv chain w) :
    Inv chain (step decode w input).2 := by
  cases input with
  | poll round => exact inv_poll meets inv
  | insert row => exact inv_insert meets inv

theorem Inv.handed_on (inv : Inv chain w) (known : firstStart w contractId = some first)
    (found : lastSnapshot w.sorobanEventSnapshot contractId = some last) {event : SorobanRpcEvent Value}
    (emitted : event ∈ chain) (own : event.contractId = some contractId) (within : event.within first last = true) :
    ∃ entry ∈ w.handed, entry.1 = contractId ∧ entry.2.toSorobanRpcEvent = event := by
  obtain ⟨ledger,isLedger,bounds⟩ := (Option.any_eq_true _ _).mp within
  have inside : first ≤ ledger ∧ ledger ≤ last := by simpa using bounds
  obtain ⟨call,member,rfl,full,starts,ends⟩ := inv.covered contractId first last known found ledger inside.1 inside.2
  obtain ⟨entry,listed,same⟩ := yielded_of_full full emitted own isLedger starts ends
  exact ⟨(call.contractId,entry.1),inv.handed call member entry listed,rfl,same⟩

theorem failed_above (meets : round.Meets decode chain w) (member : call ∈ round.calls w.sorobanEventSnapshot)
    (failed : call.failed = true)
    (found : lastSnapshot (processSorobanContractEvents decode round w).sorobanEventSnapshot round.contractId = some last) :
    last < call.startLedger := by
  obtain ⟨row,stored,own,rfl⟩ := lastSnapshot_mem found
  rcases (poll_effect round w).stored row stored with old | ⟨entry,listed,stores⟩
  · have start := old_below_start round old own
    have within := calls_within member
    omega
  · by_contra reaches
    have atLedger := (storedRow_own (meets.own entry listed) stores).2
    have full := meets.answered entry listed (by rw [stores]; rfl) call member (by omega)
    rw [full.1] at failed
    cases failed

end Steps

/-- In every run of rounds whose answers meet the condition, every event of a contract up to its last ledger has been handed on, and a
    failed batch keeps the last ledger below its range. -/
theorem polling_complete (rows : List SorobanEventSnapshot) (inputs : List (Input Value))
    (meets : ∀ t ∈ history (step decode) (World.start rows) inputs, Meets decode chain t.before t.input) :
    ∀ t ∈ history (step decode) (World.start rows) inputs, Complete chain t := by
  intro t member
  obtain ⟨before,after⟩ := history_inv inv_step meets (inv_start chain rows) t member
  constructor
  · intro contractId first last known found event emitted own within
    exact after.handed_on known found emitted own within
  · intro round isPoll call listed failed last found
    have met := meets t member
    obtain ⟨past,input,rfl⟩ := mem_history member
    cases isPoll
    exact failed_above met listed failed found

def transferAt (ledger : Int) : SorobanRpcEvent String :=
  ⟨some "CA",some ledger,[.symbol "transfer",.string "GA",.string "GB"],"50000000"⟩
def decodeTransfer (event : SorobanRpcEvent String) : Option SacTransfer :=
  if event = transferAt (event.ledger.getD 0) then some ⟨"",none,none,"GA","GB","5","50000000"⟩ else none

/-- A round of the contract with one user, at ledger 1200. -/
def roundOf (getEvents : Int → Int → Except String (List (SorobanRpcEvent String × Outcome))) : Round String :=
  ⟨"CA",.ok 1200,none,fun contractId => if contractId = "CA" then
    some ⟨fun topic => if topic = "default" then some ["u1"] else none⟩ else none,getEvents⟩

def emitted : List (SorobanRpcEvent String) := [transferAt 250,transferAt 350]

/-- The answer to every call: the transfers in its range. -/
def answers (first last : Int) : Except String (List (SorobanRpcEvent String × Outcome)) :=
  .ok ((emitted.filter fun event => event.within first last).map fun event => (event,.ok))

/-- Every batch fails in the first round; the second one gets all answers. -/
def retried : List (Input String) := [.poll (roundOf fun _ _ => .error "ETIMEDOUT"),.poll (roundOf answers)]

theorem retried_complete :
    (∀ t ∈ history (step decodeTransfer) (World.start []) retried, Complete emitted t) ∧
      lastSnapshot (run (step decodeTransfer) (World.start []) retried).sorobanEventSnapshot "CA" = some 350 := by
  refine ⟨polling_complete decodeTransfer emitted [] retried ?_,by decide +kernel⟩
  simp only [retried,history_cons,history_nil,List.forall_mem_cons]
  refine ⟨⟨by decide +kernel,by decide +kernel,fun _ _ _ _ _ known => by cases known⟩,
    ⟨by decide +kernel,by decide +kernel,?_⟩,by simp⟩
  -- both rounds start at the same ledger
  intro _ _ _ _ first known ledger above below
  have isFirst : some (200 : Int) = some first := known
  have before : ledger < 200 := below
  cases isFirst
  omega

/-- The first batch fails, and the second one has a transfer. -/
def skipping : Round String :=
  roundOf fun first last => if first = 200 then .error "ETIMEDOUT" else answers first last

/-- The answers that arrive are full and about their contract. -/
def Honest (t : Transition (World Value) (Input Value) Unit) : Prop :=
  ∀ round, t.input = .poll round → ∀ call ∈ round.calls t.before.sorobanEventSnapshot, call.failed = false →
    Full chain call ∧ ∀ entry ∈ call.yielded, entry.1.contractId = some round.contractId

/-- Rounds are complete whichever calls fail. -/
def AlwaysComplete : Prop :=
  ∀ (decode : SorobanRpcEvent String → Option SacTransfer) (chain : List (SorobanRpcEvent String))
    (rounds : List (Round String)),
    (∀ t ∈ history (step decode) (World.start []) (rounds.map .poll), Honest chain t) →
    ∀ t ∈ history (step decode) (World.start []) (rounds.map .poll), Complete chain t

theorem skipping_honest :
    ∀ t ∈ history (step decodeTransfer) (World.start []) ([skipping].map .poll), Honest emitted t := by
  simp only [List.map_cons,List.map_nil,history_cons,history_nil,List.forall_mem_cons]
  refine ⟨?_,by simp⟩
  rintro round isPoll
  cases isPoll
  decide +kernel

/-- The transfer of the second batch is stored, and that of the first is never handed on. -/
theorem failed_batch_skipped :
    ¬ AlwaysComplete ∧ (processSorobanContractEvents decodeTransfer skipping (World.start [])).handed.map (·.2.ledgerSeq) =
      [350] := by
  refine ⟨fun always => ?_,by decide +kernel⟩
  have complete := always decodeTransfer emitted [skipping] skipping_honest
    (transition (step decodeTransfer) (World.start []) (.poll skipping)) (List.mem_singleton.mpr rfl)
  have handed := complete.1 "CA" 200 350 (by decide +kernel) (by decide +kernel) (transferAt 250) (by decide) rfl
    (by decide)
  exact absurd handed (by decide +kernel)

end StellarAlerts.SorobanPolling
