import StellarAlerts.HorizonRecords
import StellarAlerts.OrderedMaps
import StellarAlerts.RisingLogs
import StellarAlerts.Histories

/-!
The pool of Horizon nodes and the payments stream that fails over between them. A stream
keeps its cursor over every change of the node: where its connection errors it is
closed, and a timer opens the next one at the token handed over last.
-/
namespace StellarAlerts.HorizonFailover
open JsonTexts OrderedMaps RisingLogs HorizonRecords
open Horizon (orElse)
open Utf16Text (includes)

structure HorizonNodeStats where
  url : String
  healthy : Bool
  latencyMs : Nat
  ledgerHeight : Nat
  lastCheckedAt : Nat
  consecutiveFailures : Nat
  lastError : Option String
  deriving DecidableEq, Repr

def HorizonNodeStats.fresh (url : String) : HorizonNodeStats := ⟨url,true,0,0,0,0,none⟩

/-- What the code reads of an error: its message, its text and the status of its response. -/
structure Failure where
  message : String
  text : String
  status : Option Nat
  deriving DecidableEq, Repr

structure HorizonPool where
  endpoints : List String
  nodeStats : OrderedMap String HorizonNodeStats
  maxConsecutiveFailures : Nat
  some_ : endpoints ≠ []

structure HorizonPoolOptions where
  endpoints : List String := []
  maxConsecutiveFailures : Option Nat := none

/-- The constructor; `horizonEndpoints` are those of the configured network. -/
def HorizonPool.create (options : HorizonPoolOptions) (horizonEndpoints : List String) (some_ : horizonEndpoints ≠ []) :
    HorizonPool where
  endpoints := if options.endpoints ≠ [] then options.endpoints else horizonEndpoints
  nodeStats :=
    (if options.endpoints ≠ [] then options.endpoints else horizonEndpoints).foldl
      (fun stats url => stats.set url (.fresh url)) .empty
  maxConsecutiveFailures := options.maxConsecutiveFailures.getD 2
  some_ := by
    split
    · assumption
    · exact some_

def isRateLimit (status : Option Nat) (errMsg : String) : Bool := status == some 429 || includes errMsg "429"

/-- The stats under one failure more; a rate limit counts as all that are allowed. -/
def HorizonNodeStats.fail (stats : HorizonNodeStats) (maxConsecutiveFailures : Nat) (status : Option Nat)
    (errMsg : String) (now : Nat) : HorizonNodeStats :=
  let failures := stats.consecutiveFailures + if isRateLimit status errMsg then maxConsecutiveFailures else 1
  { stats with
    consecutiveFailures := failures
    healthy := if maxConsecutiveFailures ≤ failures then false else stats.healthy
    lastError := some errMsg
    lastCheckedAt := now }

def HorizonPool.markNodeFailure (pool : HorizonPool) (url : String) (error : Option Failure) (now : Nat) : HorizonPool :=
  match pool.nodeStats.get url with
  | none => pool
  | some stats =>
    let errMsg := (error.map fun e => orElse e.message e.text).getD "Node request failed"
    let status := error.bind Failure.status
    { pool with nodeStats := pool.nodeStats.set url (stats.fail pool.maxConsecutiveFailures status errMsg now) }

/-- What a node answers a probe: the sequence of its last ledger, if it names one. -/
abbrev ProbeAnswer := Except Failure (Option Nat)

def HorizonPool.probeNode (pool : HorizonPool) (url : String) (answer : ProbeAnswer) (latencyMs now : Nat) : HorizonPool :=
  let stats := (pool.nodeStats.get url).getD (.fresh url)
  let probed :=
    match answer with
    | .ok sequence =>
      { stats with
        healthy := true
        latencyMs := latencyMs
        ledgerHeight := sequence.getD 0
        consecutiveFailures := 0
        lastError := none
        lastCheckedAt := now }
    | .error e =>
      { stats.fail pool.maxConsecutiveFailures e.status (orElse e.message e.text) now with latencyMs := latencyMs }
  { pool with nodeStats := pool.nodeStats.set url probed }

def fewestFailures (failures : String → Nat) (best : String) : List String → String
  | [] => best
  | url :: rest => if failures url < failures best then fewestFailures failures url rest else fewestFailures failures best rest

def HorizonPool.getActiveNode (pool : HorizonPool) : String :=
  match pool.endpoints.find? fun url => (pool.nodeStats.get url).any HorizonNodeStats.healthy with
  | some url => url
  | none =>
    fewestFailures (fun url => ((pool.nodeStats.get url).map HorizonNodeStats.consecutiveFailures).getD 0)
      (pool.endpoints.head pool.some_) pool.endpoints

/-- One call of `stream()`: the node, the place up to which it has sent, and whether its close handle was not yet called. -/
structure Connection where
  nodeUrl : String
  sentTo : Nat
  isOpen : Bool
  deriving DecidableEq, Repr

/-- What a stream does outside: it asks a node for what is behind a cursor, and it hands records to `onMessage`. -/
inductive Entry where
  | connecting (nodeUrl cursor : String)
  | handed (record : Json) (nodeUrl : String)

/-- The variables that the callbacks of one `streamPaymentsWithFailover` share, its
    connections and the pool. `activeCloseFn` is the connection that it closes. -/
structure Stream where
  pool : HorizonPool
  isClosed : Bool
  currentCursor : String
  activeCloseFn : Option Nat
  reconnectTimeout : Bool
  seenTokens : List String
  connections : List Connection
  journal : List Entry

/-- `activeCloseFn()`, and its removal. -/
def Stream.closeActive (s : Stream) : Stream :=
  match s.activeCloseFn with
  | none => s
  | some i =>
    { s with
      connections := s.connections.modify i fun c => { c with isOpen := false }
      activeCloseFn := none }

/-- The function that `streamPaymentsWithFailover` returns. -/
def Stream.close (s : Stream) : Stream :=
  { s.closeActive with isClosed := true, reconnectTimeout := false, seenTokens := [] }

/-- A call of `onError`, in which the caller may close the stream. -/
def Stream.onError (s : Stream) (closing : Bool) : Stream := if closing then s.close else s

def Stream.note (s : Stream) (entry : Entry) : Stream := { s with journal := s.journal ++ [entry] }

/-- `reconnectTimeout = setTimeout(..)`, unless it is set. -/
def Stream.setTimer (s : Stream) : Stream := if s.reconnectTimeout then s else { s with reconnectTimeout := true }

def Stream.markNodeFailure (s : Stream) (url : String) (error : Option Failure) (now : Nat) : Stream :=
  { s with pool := s.pool.markNodeFailure url error now }

/-- What becomes of a call of `stream()`. -/
inductive Attempt where
  | opened
  | thrown (error : Failure) (closing : Bool)

/-- The most tokens that are remembered. -/
def MAX_SEEN : Nat := 10000

def remember (seenTokens : List String) (token : String) : List String :=
  let seen := seenTokens ++ [token]
  if MAX_SEEN < seen.length then
    match seen with
    | oldest :: rest => if oldest ≠ "" then rest else seen
    | [] => seen
  else seen

section
variable (place : String → Nat)

def Stream.connectToNextNode (s : Stream) (attempt : Attempt) (now : Nat) : Stream :=
  if s.isClosed then s
  else
    let nodeUrl := s.pool.getActiveNode
    let s := s.note (.connecting nodeUrl s.currentCursor)
    match attempt with
    | .opened =>
      { s with
        connections := s.connections ++ [⟨nodeUrl,place s.currentCursor,true⟩]
        activeCloseFn := some s.connections.length }
    | .thrown error closing =>
      let s := (s.markNodeFailure nodeUrl (some error) now).onError closing
      if s.isClosed then s else s.setTimer

def Stream.onmessage (s : Stream) (nodeUrl : String) (record : Json) : Stream :=
  if s.isClosed then s
  else if !isHorizonOperationRecord record then s
  else
    let token := orElse (pagingToken record) (txHash record)
    if token ≠ "" then
      if token ∈ s.seenTokens then s
      else
        ({ s with seenTokens := remember s.seenTokens token, currentCursor := token } : Stream).note
          (.handed record nodeUrl)
    else s.note (.handed record nodeUrl)

def Stream.onerror (s : Stream) (nodeUrl : String) (error : Option Failure) (closing : Bool) (now : Nat) : Stream :=
  if s.isClosed then s
  else
    (((s.markNodeFailure nodeUrl error now).onError closing).closeActive).setTimer

structure Account extends Log fun record : Json => place (pagingToken record) where
  named : ∀ record ∈ entries, pagingToken record ≠ ""

/-- What may happen to a stream and its pool. A connection that was not closed may send its next record, any connection may report an
    error, and at any time probes return and other requests to a node fail. -/
inductive Event where
  | message (connection : Nat)
  | error (connection : Nat) (error : Option Failure) (closing : Bool) (now : Nat)
  | timeout (attempt : Attempt) (now : Nat)
  | probe (url : String) (answer : ProbeAnswer) (latencyMs now : Nat)
  | failure (url : String) (error : Option Failure) (now : Nat)
  | close

variable {place} (account : Account place)

/-- A connection sends the account's next record behind what it has sent. -/
def Stream.send (s : Stream) (i : Nat) : Stream :=
  match s.connections[i]? with
  | none => s
  | some c =>
    match c.isOpen, account.next c.sentTo with
    | true, some record =>
      ({ s with
        connections := s.connections.set i { c with sentTo := place (pagingToken record) } } : Stream).onmessage
        c.nodeUrl record
    | _, _ => s

def step (s : Stream) : Event → Unit × Stream
  | .message i => ((),s.send account i)
  | .error i error closing now =>
    match s.connections[i]? with
    | none => ((),s)
    | some c => ((),s.onerror c.nodeUrl error closing now)
  | .timeout attempt now =>
    if s.reconnectTimeout then
      ((),({ s with reconnectTimeout := false } : Stream).connectToNextNode place attempt now)
    else ((),s)
  | .probe url answer latencyMs now => ((),{ s with pool := s.pool.probeNode url answer latencyMs now })
  | .failure url error now => ((),s.markNodeFailure url error now)
  | .close => ((),s.close)

end

/-- A call of `streamPaymentsWithFailover`, up to its return. -/
def streamPaymentsWithFailover (place : String → Nat) (pool : HorizonPool) (initialCursor : String) (attempt : Attempt)
    (now : Nat) : Stream :=
  Stream.connectToNextNode place ⟨pool,false,initialCursor,none,false,[],[],[]⟩ attempt now

/-- The records that were handed to `onMessage`, in order. -/
def handedOver : List Entry → List Json
  | [] => []
  | .connecting _ _ :: rest => handedOver rest
  | .handed record _ :: rest => record :: handedOver rest

/-- The token of the record that was handed over last, or else the cursor at the start. -/
def lastToken (initialCursor : String) (journal : List Entry) : String :=
  ((handedOver journal).getLast?.map pagingToken).getD initialCursor

end StellarAlerts.HorizonFailover
