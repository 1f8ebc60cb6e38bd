import StellarAlerts.DateTexts
import StellarAlerts.Interleaving

/-!
The failover of the database and the two monitors that route reads. Calls switch
wherever they wait, and also between two steps on the memory of the process, which never
fail.
-/
namespace StellarAlerts.DbFailover
open DateTexts Interleaving

inductive FailoverState where
  | HEALTHY
  | DEGRADED_READ_ONLY
deriving DecidableEq, Repr

inductive ReplicaHealthState where
  | IN_SYNC
  | LAGGING
deriving DecidableEq, Repr

inductive DatabaseTarget where
  | PRIMARY
  | REPLICA
deriving DecidableEq, Repr

structure BufferedMutation (Payload : Type) where
  id : String
  type : String
  payload : Payload
  bufferedAt : String
deriving DecidableEq, Repr

structure FailoverConfig where
  failureThreshold : Nat
  recoveryThreshold : Nat
  maxBufferSize : Nat

structure ReplicaLagMonitorConfig where
  lagThresholdMs : Nat
  recoveryProbeCount : Nat

/-- The settings, the registered handlers, and what the language makes of its arguments. -/
structure Platform (Payload : Type) where
  config : FailoverConfig
  lag : ReplicaLagMonitorConfig
  /-- a handler is registered for the type -/
  handles : String → Bool
  /-- `Math.random().toString(36).slice(2, 10)`, one after the other -/
  random : Nat → String
  /-- `JSON.stringify`, which throws of some payloads -/
  stringify : BufferedMutation Payload → Except String String
  /-- `JSON.parse` -/
  parse : String → Option (BufferedMutation Payload)
  /-- Texts are kept, payloads as far as JSON has them. -/
  parse_stringify : ∀ mutation raw, stringify mutation = .ok raw →
    ∃ payload, parse raw = some { mutation with payload }
  /-- how often the loop of a replay may go round -/
  rounds : Nat

structure FailoverController where
  state : FailoverState
  failures : Nat
  successes : Nat
  lastProbeAt : Option Date
  degradedSince : Option Date
  lastError : Option String
  replaying : Bool
deriving DecidableEq

structure ReplicaLagMonitor where
  state : ReplicaHealthState
  lastLagMs : Option Nat
  lastProbeAt : Option Date
  lastError : Option String
  consecutiveHealthy : Nat
deriving DecidableEq

structure ReplicaLagStatus where
  state : ReplicaHealthState
  lastLagMs : Option Nat
  lastProbeAt : Option Date
  lastError : Option String
  activeReadTarget : DatabaseTarget
  consecutiveHealthyProbes : Nat
deriving DecidableEq

structure World where
  now : Date
  controller : FailoverController
  monitor : ReplicaLagMonitor
  activeReadTarget : DatabaseTarget
  /-- the list under the key of the buffer -/
  buffer : List String
  drawn : Nat
  /-- how far the replica is behind, in milliseconds -/
  lagMs : Nat

def FailoverController.new : FailoverController := ⟨.HEALTHY,0,0,none,none,none,false⟩
def ReplicaLagMonitor.new : ReplicaLagMonitor := ⟨.IN_SYNC,none,none,none,0⟩
def World.setReadTarget (w : World) (target : DatabaseTarget) : World := { w with activeReadTarget := target }

def World.enterDegradedMode (w : World) : World :=
  { w with controller.state := .DEGRADED_READ_ONLY, controller.degradedSince := some w.now }.setReadTarget .REPLICA

/-- The part of a check behind a probe that came through, up to the first call of a replay. -/
def World.probeSucceeded (w : World) (config : FailoverConfig) : Bool × World :=
  let successes := w.controller.successes + 1
  let replay := w.controller.state = .DEGRADED_READ_ONLY && config.recoveryThreshold ≤ successes && !w.controller.replaying
  (replay,{ w with
    controller.failures := 0, controller.successes := successes, controller.lastError := none
    controller.replaying := w.controller.replaying || replay })

def World.probeFailed (w : World) (config : FailoverConfig) (message : String) : World :=
  let failures := w.controller.failures + 1
  let counted := { w with
    controller.failures := failures, controller.successes := 0, controller.lastError := some message }
  if w.controller.state = .HEALTHY && config.failureThreshold ≤ failures then counted.enterDegradedMode else counted

def World.recovered (w : World) : World :=
  { w with controller.state := .HEALTHY, controller.degradedSince := none }.setReadTarget .REPLICA
def World.failOverToPrimary (w : World) : World := { w with monitor.state := .LAGGING }.setReadTarget .PRIMARY
def World.failBackToReplica (w : World) : World := { w with monitor.state := .IN_SYNC }.setReadTarget .REPLICA

def World.lagMeasured (w : World) (config : ReplicaLagMonitorConfig) (lagMs : Nat) : World :=
  let measured := { w with monitor.lastError := none, monitor.lastLagMs := some lagMs }
  if config.lagThresholdMs < lagMs then { measured with monitor.consecutiveHealthy := 0 }.failOverToPrimary
  else
    let healthy := w.monitor.consecutiveHealthy + 1
    let counted := { measured with monitor.consecutiveHealthy := healthy }
    if w.monitor.state = .LAGGING && config.recoveryProbeCount ≤ healthy then counted.failBackToReplica else counted

/-- A lag that is not known is like one that is too large. -/
def World.lagUnknown (w : World) (message : String) : World :=
  { w with monitor.lastError := some message, monitor.lastLagMs := none, monitor.consecutiveHealthy := 0 }.failOverToPrimary

section Queries
variable {Payload : Type}

inductive Query (Payload : Type) where
  /-- `lastProbeAt` of a check -/
  | startCheck
  | probe
  /-- whether the check goes on to replay -/
  | probeSucceeded
  | probeFailed (message : String)
  | shift
  | handle (type : String) (payload : Payload)
  | unshift (raw : String)
  | resetSuccesses
  | recovered
  | endReplay
  | length
  | controller
  | isReadOnly
  /-- the identifier and the time of a new mutation -/
  | stamp
  | push (raw : String)
  /-- `lastProbeAt` of the monitor -/
  | startLagCheck
  | lagProbe
  | lagMeasured (lagMs : Nat)
  | lagUnknown (message : String)
  | lagStatus
deriving DecidableEq

abbrev Value (Payload : Type) : Query Payload → Type
  | .probeSucceeded => Bool
  | .shift => Option String
  | .length => Nat
  | .controller => FailoverController
  | .isReadOnly => Bool
  | .stamp => String × String
  | .lagProbe => Nat
  | .lagStatus => ReplicaLagStatus
  | _ => Unit

abbrev Code (Payload : Type) := Interleaving.Code (Query Payload) (Value Payload)

/-- The query goes to the primary, the replica, the store or a handler, and is waited for. -/
def Query.isRemote : Query Payload → Bool
  | .probe => true
  | .shift => true
  | .handle _ _ => true
  | .unshift _ => true
  | .length => true
  | .push _ => true
  | .lagProbe => true
  | _ => false

def Query.isMemory (q : Query Payload) : Bool := !q.isRemote

def exec (p : Platform Payload) (w : World) : (q : Query Payload) → Except String (Value Payload q) × World
  | .startCheck => (.ok (),{ w with controller.lastProbeAt := some w.now })
  | .probe => (.ok (),w)
  | .probeSucceeded => (.ok (w.probeSucceeded p.config).1,(w.probeSucceeded p.config).2)
  | .probeFailed message => (.ok (),w.probeFailed p.config message)
  | .shift => (.ok w.buffer.head?,{ w with buffer := w.buffer.tail })
  | .handle _ _ => (.ok (),w)
  | .unshift raw => (.ok (),{ w with buffer := raw :: w.buffer })
  | .resetSuccesses => (.ok (),{ w with controller.successes := 0 })
  | .recovered => (.ok (),w.recovered)
  | .endReplay => (.ok (),{ w with controller.replaying := false })
  | .length => (.ok w.buffer.length,w)
  | .controller => (.ok w.controller,w)
  | .isReadOnly => (.ok (w.controller.state = .DEGRADED_READ_ONLY),w)
  | .stamp => (.ok (s!"{w.now.ms}-{p.random w.drawn}",toISOString w.now),{ w with drawn := w.drawn + 1 })
  | .push raw => (.ok (),{ w with buffer := w.buffer ++ [raw] })
  | .startLagCheck => (.ok (),{ w with monitor.lastProbeAt := some w.now })
  | .lagProbe => (.ok w.lagMs,w)
  | .lagMeasured lagMs => (.ok (),w.lagMeasured p.lag lagMs)
  | .lagUnknown message => (.ok (),w.lagUnknown message)
  | .lagStatus =>
    (.ok ⟨w.monitor.state,w.monitor.lastLagMs,w.monitor.lastProbeAt,w.monitor.lastError,w.activeReadTarget,
      w.monitor.consecutiveHealthy⟩,w)

def ask (q : Query Payload) : Code Payload (Value Payload q) := query q

structure FailoverStatus where
  state : FailoverState
  consecutiveFailures : Nat
  consecutiveSuccesses : Nat
  lastProbeAt : Option Date
  degradedSince : Option Date
  lastError : Option String
  bufferedMutations : Nat
deriving DecidableEq

/-- A store that does not answer counts as empty. -/
def getStatus : Code Payload FailoverStatus := do
  let buffered ← tryCatch (ask .length) fun _ => return 0
  let controller ← ask .controller
  return ⟨controller.state,controller.failures,controller.successes,controller.lastProbeAt,controller.degradedSince,
    controller.lastError,buffered⟩

/-- Whether the buffer was drained. -/
def replayBuffered (p : Platform Payload) : Nat → Code Payload Bool
  | 0 => return false
  | rounds + 1 => do
    let raw ← ask .shift
    match raw with
    | none => return true
    | some raw =>
      match p.parse raw with
      | none => replayBuffered p rounds
      | some mutation =>
        if !p.handles mutation.type then replayBuffered p rounds
        else
          let handled ← attempt (ask (.handle mutation.type mutation.payload))
          match handled with
          | .ok _ => replayBuffered p rounds
          | .error _ => do
            ask (.unshift raw)
            ask .resetSuccesses
            return false

/-- `recover` of the check that set `replaying`; listeners are told the status. -/
def recover (p : Platform Payload) : Code Payload Unit :=
  withFinally (do
    let drained ← replayBuffered p p.rounds
    if drained then
      ask .recovered
      let _ ← getStatus) (ask .endReplay)

/-- What listeners are told of the degraded mode goes on by itself and changes nothing. -/
def check (p : Platform Payload) : Code Payload FailoverStatus := do
  ask .startCheck
  tryCatch (do
    ask .probe
    let replay ← ask .probeSucceeded
    if replay then recover p) fun message => ask (.probeFailed message)
  getStatus

def bufferMutation (p : Platform Payload) (type : String) (payload : Payload) : Code Payload (BufferedMutation Payload) := do
  let size ← ask .length
  if p.config.maxBufferSize ≤ size then throw "Mutation buffer is full"
  else
    let stamp ← ask .stamp
    let mutation : BufferedMutation Payload := ⟨stamp.1,type,payload,stamp.2⟩
    let raw ← given (p.stringify mutation)
    ask (.push raw)
    return mutation

def request (p : Platform Payload) (type : String) (payload : Payload) :
    Code Payload (Option (BufferedMutation Payload)) := do
  let readOnly ← ask .isReadOnly
  if readOnly then some <$> bufferMutation p type payload else return none

/-- `check` of the monitor, with a replica configured. -/
def lagCheck : Code Payload ReplicaLagStatus := do
  ask .startLagCheck
  let probed ← attempt (ask .lagProbe)
  match probed with
  | .error message => ask (.lagUnknown message)
  | .ok lagMs => ask (.lagMeasured lagMs)
  ask .lagStatus

inductive Task (Payload : Type) where
  | check
  | bufferMutation (type : String) (payload : Payload)
  | request (type : String) (payload : Payload)
  | lagCheck

inductive Reply (Payload : Type) where
  | checked (status : FailoverStatus)
  | buffered (mutation : BufferedMutation Payload)
  | requested (mutation : Option (BufferedMutation Payload))
  | lagChecked (status : ReplicaLagStatus)

def Task.program (p : Platform Payload) : Task Payload → Program (Query Payload) (Value Payload) (Except String (Reply Payload))
  | .check => (.checked <$> DbFailover.check p : Code Payload (Reply Payload)).run
  | .bufferMutation type payload => (.buffered <$> DbFailover.bufferMutation p type payload : Code Payload (Reply Payload)).run
  | .request type payload => (.requested <$> DbFailover.request p type payload : Code Payload (Reply Payload)).run
  | .lagCheck => (.lagChecked <$> DbFailover.lagCheck : Code Payload (Reply Payload)).run

inductive Outside where
  | setTime (now : Date)
  | setLag (lagMs : Nat)

def Outside.apply : Outside → World → World
  | .setTime now, w => { w with now }
  | .setLag lagMs, w => { w with lagMs }

abbrev System (Payload : Type) := Interleaving.System World (Query Payload) (Value Payload) (Except String (Reply Payload))

def step (p : Platform Payload) : System Payload → Event (Task Payload) Outside →
    Option (Answered (Query Payload) (Value Payload)) × System Payload :=
  processStep (exec p) (Task.program p) Outside.apply Query.isMemory

end Queries

end StellarAlerts.DbFailover
