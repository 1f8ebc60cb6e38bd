import StellarAlerts.Interleaving

/-!
The circuit breaker that the replicas share through Redis, for the three keys of one
endpoint. The functions are programs of the commands that they send, and any number of
them interleave at every command.
-/
namespace StellarAlerts.CircuitBreaker
open Interleaving

inductive CircuitState where
  | CLOSED
  | OPEN
  | HALF_OPEN
deriving DecidableEq, Repr

structure CircuitBreakerOptions where
  failureThreshold : Option Nat
  windowSeconds : Option Nat
  cooldownSeconds : Option Nat
deriving DecidableEq, Repr

structure RedisCircuitBreaker where
  failureThreshold : Nat
  windowSeconds : Nat
  cooldownSeconds : Nat
deriving DecidableEq, Repr

def RedisCircuitBreaker.new (options : CircuitBreakerOptions) : RedisCircuitBreaker :=
  ⟨options.failureThreshold.getD 5,options.windowSeconds.getD 60,options.cooldownSeconds.getD 60⟩

/-- A counter and the time from which its key is gone. -/
structure Counter where
  count : Nat
  expiresAt : Option Nat
deriving DecidableEq, Repr

/-- The clock in milliseconds and the keys `state`, `failures` and `opened_at`. Only the counter is ever given a time to live. -/
structure World where
  now : Nat
  state : Option CircuitState
  failures : Option Counter
  openedAt : Option Nat
deriving DecidableEq, Repr

/-- The Redis commands, the clock, and the protected function of `execute`. -/
inductive Query where
  | getState
  | setState (state : CircuitState)
  | getOpenedAt
  | setOpenedAt (at_ : Nat)
  | delOpenedAt
  | delFailures
  | incrFailures
  | expireFailures (seconds : Nat)
  | dateNow
  | fn
deriving DecidableEq, Repr

def Value : Query → Type
  | .getState => Option CircuitState
  | .getOpenedAt => Option Nat
  | .incrFailures => Nat
  | .dateNow => Nat
  | .setState _ | .setOpenedAt _ | .delOpenedAt | .delFailures | .expireFailures _ | .fn => Unit

abbrev Code (α : Type) := Interleaving.Code Query Value α

/-- One query, under the type of its answer. -/
def ask (q : Query) : Code (Value q) := query q

/-- `Promise.all`: every command is carried out whatever becomes of the others, and an error among them is thrown. -/
def promiseAll : List (Code Unit) → Code Unit
  | [] => pure ()
  | command :: rest => ExceptT.mk (.bind command.run fun ended => .bind (promiseAll rest).run fun others =>
      .returned (match ended with
        | .error e => .error e
        | .ok _ => others))

/-- `Math.floor((Date.now() - openedAt) / 1000)`. -/
def elapsedSeconds (now openedAt : Nat) : Int := ((now : Int) - openedAt) / 1000

section Functions
variable (b : RedisCircuitBreaker)

def getState : Code CircuitState :=
  try
    let state : Option CircuitState ← ask .getState
    match state with
    | none => pure .CLOSED
    | some .OPEN =>
      let openedAtStr : Option Nat ← ask .getOpenedAt
      match openedAtStr with
      | some openedAt =>
        let now : Nat ← ask .dateNow
        if (b.cooldownSeconds : Int) ≤ elapsedSeconds now openedAt then
          let _ ← ask (.setState .HALF_OPEN)
          pure .HALF_OPEN
        else pure .OPEN
      | none => pure .OPEN
    | some .HALF_OPEN => pure .HALF_OPEN
    | some .CLOSED => pure .CLOSED
  catch _ => pure .CLOSED

def canExecute : Code Bool := do
  let state ← getState b
  pure (decide (state ≠ .OPEN))

/-- The two writes that open the circuit, behind the reading of the clock. -/
def openCircuit : Code Unit := do
  let now : Nat ← ask .dateNow
  promiseAll [ask (.setState .OPEN),ask (.setOpenedAt now)]

def closeCircuit : Code Unit := promiseAll [ask (.setState .CLOSED),ask .delFailures,ask .delOpenedAt]

def recordSuccess : Code Unit :=
  try
    let state ← getState b
    match state with
    | .HALF_OPEN => closeCircuit
    | .CLOSED => ask .delFailures
    | .OPEN => pure ()
  catch _ => pure ()

/-- One more failure in the window, which begins with the first. -/
def countFailure : Code Nat := do
  let failures : Nat ← ask .incrFailures
  if failures = 1 then
    let _ ← ask (.expireFailures b.windowSeconds)
    pure failures
  else pure failures

def recordFailure : Code CircuitState :=
  try
    let currentState ← getState b
    if currentState = .HALF_OPEN then
      openCircuit
      pure .OPEN
    else
      let failures ← countFailure b
      if b.failureThreshold ≤ failures then
        openCircuit
        pure .OPEN
      else pure .CLOSED
  catch _ => pure .CLOSED

/-- The protected function and the record of its outcome; its error is thrown on. -/
def protect : Code Unit :=
  try
    let _ ← ask .fn
    recordSuccess b
  catch err =>
    let _ ← recordFailure b
    throw err

def execute (endpointId : String) : Code Unit := do
  if ← canExecute b then protect b
  else throw ("Circuit breaker is OPEN for endpoint " ++ endpointId)

def trip : Code Unit := openCircuit
def reset : Code Unit := closeCircuit

end Functions

/-- The calls of one endpoint's breaker. -/
inductive Call where
  | getState
  | recordSuccess
  | recordFailure
  | execute (endpointId : String)
  | trip
  | reset
deriving DecidableEq, Repr

def Call.program (b : RedisCircuitBreaker) : Call → Program Query Value (Except String (Option CircuitState))
  | .getState => (some <$> CircuitBreaker.getState b : Code (Option CircuitState)).run
  | .recordSuccess => ((fun _ => none) <$> CircuitBreaker.recordSuccess b : Code (Option CircuitState)).run
  | .recordFailure => (some <$> CircuitBreaker.recordFailure b : Code (Option CircuitState)).run
  | .execute endpointId => ((fun _ => none) <$> CircuitBreaker.execute b endpointId : Code (Option CircuitState)).run
  | .trip => ((fun _ => none) <$> CircuitBreaker.trip : Code (Option CircuitState)).run
  | .reset => ((fun _ => none) <$> CircuitBreaker.reset : Code (Option CircuitState)).run

/-- The counter, unless its time is over. -/
def World.liveFailures (w : World) : Option Counter :=
  w.failures.filter fun counter => counter.expiresAt.all fun at_ => decide (w.now < at_)

/-- The answer to a query and the state that it leaves. -/
def exec (w : World) : (q : Query) → Except String (Value q) × World
  | .getState => (.ok w.state,w)
  | .setState state => (.ok (),{ w with state := some state })
  | .getOpenedAt => (.ok w.openedAt,w)
  | .setOpenedAt at_ => (.ok (),{ w with openedAt := some at_ })
  | .delOpenedAt => (.ok (),{ w with openedAt := none })
  | .delFailures => (.ok (),{ w with failures := none })
  | .incrFailures =>
    match w.liveFailures with
    | some counter => (.ok (counter.count + 1),{ w with failures := some { counter with count := counter.count + 1 } })
    | none => (.ok (1 : Nat),{ w with failures := some ⟨1,none⟩ })
  | .expireFailures seconds =>
    (.ok (),{ w with failures := w.liveFailures.map fun counter =>
      { counter with expiresAt := some (w.now + seconds * 1000) } })
  | .dateNow => (.ok w.now,w)
  | .fn => (.ok (),w)

/-- Time passes. -/
def elapse (ms : Nat) (w : World) : World := { w with now := w.now + ms }

abbrev System := Interleaving.System World Query Value (Except String (Option CircuitState))

/-- The calls interleave at every query; time passes in between. -/
def step (b : RedisCircuitBreaker) : System → Input Call Nat → Option (Answered Query Value) × System :=
  Interleaving.step exec (Call.program b) elapse

/-- Neither the protected function nor a write of a trip. -/
def Plain : Query → Prop
  | .fn => False
  | .setState .OPEN => False
  | .setOpenedAt _ => False
  | _ => True

section Steady
variable {Place : Type} (allowed : Place → Query → Prop) (after : Place → (q : Query) → Except String (Value q) → Place)

/-- A place at which the plain queries stay and to which a trip comes back. -/
structure Steady (home : Place) : Prop where
  stays : ∀ q, Plain q → Stays allowed after home q
  trips : Returns allowed after home openCircuit

variable {allowed after} {home : Place}

theorem promiseAll_returns {command : Code Unit} {rest : List (Code Unit)} (first : Returns allowed after home command)
    (others : Returns allowed after home (promiseAll rest)) : Returns allowed after home (promiseAll (command :: rest)) := by
  refine follows_bind.mpr (follows_mono ?_ first)
  rintro ended place rfl
  refine follows_bind.mpr (follows_mono ?_ others)
  rintro later place rfl
  rfl

variable (steady : Steady allowed after home) (b : RedisCircuitBreaker)
include steady

theorem asks_returns {q : Query} (plain : Plain q) : Returns allowed after home (ask q) :=
  returns_query (steady.stays q plain)

theorem getState_returns : Returns allowed after home (getState b) := by
  refine returns_tryCatch (returns_bind (asks_returns steady trivial) fun state => ?_) (fun _ => returns_pure _)
  rcases state with _ | state
  · exact returns_pure _
  · cases state with
    | CLOSED => exact returns_pure _
    | HALF_OPEN => exact returns_pure _
    | OPEN =>
      refine returns_bind (asks_returns steady trivial) fun openedAtStr => ?_
      rcases openedAtStr with _ | openedAt
      · exact returns_pure _
      · refine returns_bind (asks_returns steady trivial) fun now => ?_
        split
        · exact returns_bind (asks_returns steady trivial) fun _ => returns_pure _
        · exact returns_pure _

theorem closeCircuit_returns : Returns allowed after home closeCircuit := by
  refine promiseAll_returns (asks_returns steady trivial) ?_
  refine promiseAll_returns (asks_returns steady trivial) ?_
  exact promiseAll_returns (asks_returns steady trivial) (returns_pure ())

theorem recordSuccess_returns : Returns allowed after home (recordSuccess b) := by
  refine returns_tryCatch (returns_bind (getState_returns steady b) fun state => ?_) (fun _ => returns_pure _)
  cases state with
  | HALF_OPEN => exact closeCircuit_returns steady
  | CLOSED => exact asks_returns steady trivial
  | OPEN => exact returns_pure _

theorem countFailure_returns : Returns allowed after home (countFailure b) := by
  refine returns_bind (asks_returns steady trivial) fun failures => ?_
  split
  · exact returns_bind (asks_returns steady trivial) fun _ => returns_pure _
  · exact returns_pure _

theorem recordFailure_returns : Returns allowed after home (recordFailure b) := by
  have opens : Returns allowed after home (openCircuit >>= fun _ => pure CircuitState.OPEN : Code CircuitState) :=
    returns_bind steady.trips fun _ => returns_pure _
  refine returns_tryCatch (returns_bind (getState_returns steady b) fun currentState => ?_) (fun _ => returns_pure _)
  split
  · exact opens
  · refine returns_bind (countFailure_returns steady b) fun failures => ?_
    split
    · exact opens
    · exact returns_pure _

end Steady
end StellarAlerts.CircuitBreaker
