import StellarAlerts.WatcherAlerts

/-!
The live payment stream of a wallet. An event is whatever the runtime calls next; the
clock is left out, so that an armed timer may fire at any time. A task runs as one
event: what happens meanwhile sees the tables before or after it.
-/
namespace StellarAlerts.PaymentStream
open Actions Horizon Watcher

structure StartHorizonSSEStreamOptions where
  maxReconnectAttempts : Option Nat := none
  maxQueuedMessages : Nat := 50
  deriving DecidableEq, Repr

/-- A message on the chain, with the generation of its connection. -/
structure Task (p : Platform) where
  record : HorizonOperationRecord p.Operation
  generation : Nat

/-- An open connection: the cursor it was opened at and what it has sent since. -/
structure Connection (p : Platform) where
  id : Nat
  generation : Nat
  cursor : String
  sent : List (HorizonOperationRecord p.Operation)

/-- The variables of the stream, the timers that are armed, the calls of `connect` that wait for the cursor or have just got it, the
    open connections, and the tables. The last three fields record what has happened: the messages so far, the records whose processing
    went through (in the stream or in the recovery of a call that went through), and those whose processing failed. -/
structure Stream (p : Platform) where
  world : World p
  isClosed : Bool
  currentClose : Option Nat
  heartbeatTimeout : Option Nat
  reconnectTimeout : Option Nat
  failureCount : Nat
  streamGeneration : Nat
  processingChain : List (Task p)
  timers : List Nat
  connecting : List (Option String)
  connections : List (Connection p)
  fresh : Nat
  delivered : List (HorizonOperationRecord p.Operation)
  processed : List (HorizonOperationRecord p.Operation)
  failed : List (HorizonOperationRecord p.Operation)

variable {p : Platform}

/-- The records that wait on the chain. -/
def Stream.queued (s : Stream p) : List (HorizonOperationRecord p.Operation) := s.processingChain.map (·.record)

/-- Both timers are cleared and the current connection is closed. -/
def cleanupCurrent (s : Stream p) : Stream p :=
  { s with
    timers := s.timers.filter fun timer => s.heartbeatTimeout ≠ some timer ∧ s.reconnectTimeout ≠ some timer
    heartbeatTimeout := none
    reconnectTimeout := none
    connections := s.connections.filter fun connection => s.currentClose ≠ some connection.id
    currentClose := none }

/-- `reconnectTimeout = setTimeout(connect, …)`; a timer that the variable still held stays armed. -/
def setReconnect (s : Stream p) : Stream p :=
  { s with reconnectTimeout := some s.fresh, timers := s.timers ++ [s.fresh], fresh := s.fresh + 1 }

def resetHeartbeat (s : Stream p) : Stream p :=
  { s with
    timers := (s.timers.filter fun timer => s.heartbeatTimeout ≠ some timer) ++ [s.fresh]
    heartbeatTimeout := some s.fresh
    fresh := s.fresh + 1 }

def restartFromPersistedCursor (generation : Nat) (s : Stream p) : Stream p :=
  if s.isClosed = true ∨ generation ≠ s.streamGeneration then s
  else setReconnect (cleanupCurrent { s with streamGeneration := s.streamGeneration + 1 })

/-- The part of `connect` before its first await. -/
def connect (s : Stream p) : Stream p :=
  if s.isClosed then s
  else { cleanupCurrent s with connecting := s.connecting ++ [none] }

/-- A reconnect is scheduled unless the attempts of the backoff are exhausted. -/
def scheduleReconnect (options : StartHorizonSSEStreamOptions) (s : Stream p) : Stream p :=
  if s.isClosed then s
  else
    match options.maxReconnectAttempts with
    | some maxAttempts =>
      if maxAttempts ≤ s.failureCount then s else setReconnect { s with failureCount := s.failureCount + 1 }
    | none => setReconnect { s with failureCount := s.failureCount + 1 }

/-- `backoff.reset()`. -/
def resetBackoff (s : Stream p) : Stream p := { s with failureCount := 0 }

/-- A message joins the chain, or is dropped when the chain is full. -/
def enqueueMessage (options : StartHorizonSSEStreamOptions) (record : HorizonOperationRecord p.Operation)
    (generation : Nat) (s : Stream p) : Stream p :=
  if options.maxQueuedMessages ≤ s.processingChain.length then
    if generation = s.streamGeneration ∧ s.isClosed = false then restartFromPersistedCursor generation s else s
  else { s with processingChain := s.processingChain ++ [⟨record,generation⟩] }

def onmessage (options : StartHorizonSSEStreamOptions) (connection : Connection p)
    (record : HorizonOperationRecord p.Operation) (s : Stream p) : Stream p :=
  enqueueMessage options record connection.generation (resetBackoff (resetHeartbeat s))

def onerror (options : StartHorizonSSEStreamOptions) (s : Stream p) : Stream p :=
  scheduleReconnect options (cleanupCurrent s)

def Connection.send (id : Nat) (record : HorizonOperationRecord p.Operation) (connection : Connection p) :
    Connection p :=
  if connection.id = id then { connection with sent := connection.sent ++ [record] } else connection

def Stream.sends (id : Nat) (record : HorizonOperationRecord p.Operation) (s : Stream p) : Stream p :=
  { s with connections := s.connections.map (Connection.send id record), delivered := s.delivered ++ [record] }

/-- A connection calls back with a message. -/
def message (options : StartHorizonSSEStreamOptions) (id : Nat) (record : HorizonOperationRecord p.Operation)
    (s : Stream p) : Stream p :=
  match s.connections.find? (·.id = id) with
  | none => s
  | some connection => onmessage options connection record (s.sends id record)

/-- The call that the first message of the chain makes. -/
def taskHandling (task : Task p) (trial : Trial p) (recent : List (HorizonOperationRecord p.Operation × Trial p)) :
    Handling p := ⟨task.record,trial,recent⟩

/-- The records that this call takes in if it goes through. -/
def takenIn (wallet : Wallet) (handling : Handling p) (world : World p) : List (HorizonOperationRecord p.Operation) :=
  (handledBy world ⟨wallet,false,handling⟩).map (·.record)

/-- The first task of the chain runs and settles; after a failure the next ones still run. -/
def runTask (wallet : Wallet) (trial : Trial p) (recent : List (HorizonOperationRecord p.Operation × Trial p))
    (s : Stream p) : Stream p :=
  match s.processingChain with
  | [] => s
  | task :: rest =>
    if s.isClosed then { s with processingChain := rest }
    else
      match exec (processPaymentRecord wallet false (taskHandling task trial recent)) s.world with
      | (.ok _,world) => { s with
          world
          processingChain := rest
          processed := s.processed ++ takenIn wallet (taskHandling task trial recent) s.world }
      | (.error _,world) => restartFromPersistedCursor task.generation { s with
          world
          processingChain := rest
          failed := s.failed ++ [task.record] }

/-- A call of `connect` gets its cursor, or fails to. -/
def readCursor (wallet : Wallet) (options : StartHorizonSSEStreamOptions) (i : Nat)
    (fails : CatchUpStage → Option String) (latestPagingToken : String) (s : Stream p) : Stream p :=
  match s.connecting[i]? with
  | some none =>
    match exec (ensureCursor wallet fails latestPagingToken) s.world with
    | (.ok cursor,world) => { s with world, connecting := s.connecting.set i (some cursor) }
    | (.error _,world) => scheduleReconnect options { s with world, connecting := s.connecting.eraseIdx i }
  | _ => s

/-- It goes on from there and opens its connection, unless the connector throws; the answer is the cursor of the new connection. -/
def openConnection (options : StartHorizonSSEStreamOptions) (i : Nat) (throws : Bool) (s : Stream p) :
    Option String × Stream p :=
  match s.connecting[i]? with
  | some (some cursor) =>
    let s := resetHeartbeat { s with connecting := s.connecting.eraseIdx i }
    if throws then (none,scheduleReconnect options s)
    else (some cursor,{ s with
      connections := s.connections ++ [⟨s.fresh,s.streamGeneration,cursor,[]⟩]
      currentClose := some s.fresh
      fresh := s.fresh + 1 })
  | _ => (none,s)

def close (s : Stream p) : Stream p := cleanupCurrent { s with isClosed := true }

/-- What the runtime calls next. -/
inductive Event (p : Platform) where
  | message (id : Nat) (record : HorizonOperationRecord p.Operation)
  | error (id : Nat)
  | task (trial : Trial p) (recent : List (HorizonOperationRecord p.Operation × Trial p))
  | timer (timer : Nat)
  | cursor (i : Nat) (fails : CatchUpStage → Option String) (latestPagingToken : String)
  | opened (i : Nat) (throws : Bool)
  | close

/-- One event; the answer is the cursor of a connection that it opens. -/
def step (wallet : Wallet) (options : StartHorizonSSEStreamOptions) (s : Stream p) : Event p → Option String × Stream p
  | .message id record => (none,message options id record s)
  | .error id => (none,if s.connections.any (·.id = id) then onerror options s else s)
  | .task trial recent => (none,runTask wallet trial recent s)
  | .timer timer =>
    (none,if timer ∈ s.timers then connect { s with timers := s.timers.erase timer } else s)
  | .cursor i fails latestPagingToken => (none,readCursor wallet options i fails latestPagingToken s)
  | .opened i throws => openConnection options i throws s
  | .close => (none,close s)

/-- The stream once its lease is held: the first call of `connect`. -/
def Stream.start (world : World p) : Stream p := connect ⟨world,false,none,none,none,0,0,[],[],[],[],0,[],[],[]⟩

end StellarAlerts.PaymentStream
