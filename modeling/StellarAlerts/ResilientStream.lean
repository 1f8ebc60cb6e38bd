import StellarAlerts.Histories
import StellarAlerts.RecentWindows

/-!
The stream of payments in the command line client. With a server that goes on behind the
cursor, also where it first repeats some of the last payments, every payment is handled
once and in order, whatever fails.
-/
namespace StellarAlerts.ResilientStream
open Histories RecentWindows

/-- What is thrown, by its message. -/
inductive StreamError where
  | http (message : String) (status : Nat)
  | other (message : String)
deriving DecidableEq, Repr

def StreamError.message : StreamError → String
  | .http message _ => message
  | .other message => message

def isRetryableStreamError : StreamError → Bool
  | .http _ status => decide (500 ≤ status) || status == 429 || status == 408
  | .other _ => true

structure PaymentDTO where
  id : String
  pagingToken : Option String
deriving DecidableEq, Repr

/-- `payment.pagingToken ?? payment.id`. -/
def PaymentDTO.cursor (payment : PaymentDTO) : String := payment.pagingToken.getD payment.id

structure Checkpoint where
  cursor : String
  lastId : String
deriving DecidableEq, Repr

def PaymentDTO.checkpoint (payment : PaymentDTO) : Checkpoint := ⟨payment.cursor,payment.id⟩

/-- The options that decide; without a bound there are retries for ever. -/
structure Options where
  store : Bool
  initialCursor : Option String
  maxRetries : Option Nat
  dedupWindow : Nat
deriving DecidableEq, Repr

structure ResilientStreamResult where
  received : Nat
  suppressed : Nat
  cursor : Option String
deriving DecidableEq, Repr

/-- What the function waits for, or how it ended. -/
inductive Phase where
  | connecting
  | reading
  | handling (payment : PaymentDTO)
  | saving (payment : PaymentDTO)
  | sleeping
  | returned (result : ResilientStreamResult)
  | threw (error : StreamError)
deriving DecidableEq, Repr

/-- The local variables, and whether the signal is aborted. -/
structure Machine (options : Options) where
  phase : Phase
  cursor : Option String
  seen : Recent String options.dedupWindow
  received : Nat
  suppressed : Nat
  attempt : Nat
  aborted : Bool

variable {options : Options}

def Machine.finish (m : Machine options) : Machine options :=
  { m with phase := .returned ⟨m.received,m.suppressed,m.cursor⟩ }

/-- The head of the outer loop. -/
def Machine.top (m : Machine options) : Machine options :=
  if m.aborted then m.finish else { m with phase := .connecting }

def startCursor (options : Options) (stored : Option Checkpoint) : Option String :=
  options.initialCursor.or (stored.map Checkpoint.cursor)

/-- What the function knows of the store. -/
def loadedBy (options : Options) (loaded : Option Checkpoint) : Option Checkpoint := if options.store then loaded else none

def startSeen (options : Options) (stored : Option Checkpoint) : List String :=
  if options.initialCursor = none then (stored.map Checkpoint.lastId).toList else []

/-- The function up to the first connection, with what was loaded from the store. -/
def Machine.start (options : Options) (loaded : Option Checkpoint) (aborted : Bool) : Machine options :=
  let stored := loadedBy options loaded
  Machine.top
    { phase := .connecting
      cursor := startCursor options stored
      seen := (startSeen options stored).foldl Recent.add Recent.empty
      received := 0
      suppressed := 0
      attempt := 0
      aborted }

/-- The end of a round that failed. -/
def Machine.retry (m : Machine options) (failure : StreamError) : Machine options :=
  let attempt := m.attempt + 1
  match options.maxRetries with
  | none => { m with attempt, phase := .sleeping }
  | some maxRetries =>
    if maxRetries < attempt then
      { m with
        attempt
        phase := .threw (.other s!"Giving up after {maxRetries} reconnect attempt(s): {failure.message}") }
    else { m with attempt, phase := .sleeping }

/-- The outer `catch` where the handler did not fail. -/
def Machine.caught (m : Machine options) (error : StreamError) : Machine options :=
  if m.aborted then m.finish
  else if isRetryableStreamError error then m.retry error
  else { m with phase := .threw error }

/-- Behind the inner loop where the handler did not fail. -/
def Machine.closed (m : Machine options) : Machine options :=
  if m.aborted then m.finish else m.retry (.other "Stream closed by server")

/-- The end of the body of the inner loop. -/
def Machine.next (m : Machine options) : Machine options :=
  if m.aborted then m.finish else { m with phase := .reading }

/-- A payment of the connection: dropped, or handed to `onPayment`. -/
def Machine.payment (m : Machine options) (payment : PaymentDTO) : Machine options :=
  let m := { m with attempt := 0 }
  if m.seen.has payment.id then { m with suppressed := m.suppressed + 1 }.next
  else { m with phase := .handling payment }

/-- `onPayment` returned. -/
def Machine.handled (m : Machine options) (payment : PaymentDTO) : Machine options :=
  let m := { m with seen := m.seen.add payment.id, received := m.received + 1, cursor := some payment.cursor }
  if options.store then { m with phase := .saving payment } else m.next

/-- What the function hears of. A handler fails with an error or with `undefined`. -/
inductive Occurrence where
  | abort
  | connected
  | connectFailed (error : StreamError)
  | payment (payment : PaymentDTO)
  | ended
  | failed (error : StreamError)
  | handled
  | handlerFailed (error : Option StreamError)
  | saved
  /-- with what `onWarning` throws -/
  | saveFailed (error : Option StreamError)
  | slept
  /-- `onReconnect` or `sleep` throws -/
  | sleepFailed (error : StreamError)
deriving DecidableEq, Repr

/-- What the function does next; what it does not wait for passes by. -/
def Machine.advance (m : Machine options) : Occurrence → Machine options
  | .abort =>
    match m.phase with
    | .returned _ => m
    | .threw _ => m
    | _ => { m with aborted := true }
  | .connected =>
    match m.phase with
    | .connecting => { m with phase := .reading }
    | _ => m
  | .connectFailed error =>
    match m.phase with
    | .connecting => m.caught error
    | _ => m
  | .payment payment =>
    match m.phase with
    | .reading => m.payment payment
    | _ => m
  | .ended =>
    match m.phase with
    | .reading => m.closed
    | _ => m
  | .failed error =>
    match m.phase with
    | .reading => m.caught error
    | _ => m
  | .handled =>
    match m.phase with
    | .handling payment => m.handled payment
    | _ => m
  | .handlerFailed error =>
    match m.phase with
    | .handling _ =>
      match error with
      | some error => { m with phase := .threw error }
      | none => m.closed
    | _ => m
  | .saved =>
    match m.phase with
    | .saving _ => m.next
    | _ => m
  | .saveFailed error =>
    match m.phase with
    | .saving _ =>
      match error with
      | some error => m.caught error
      | none => m.next
    | _ => m
  | .slept =>
    match m.phase with
    | .sleeping => m.top
    | _ => m
  | .sleepFailed error =>
    match m.phase with
    | .sleeping => { m with phase := .threw error }
    | _ => m

/-- The payments behind the initial cursor, in order. A payment has its id and its cursor
    for itself, and the stored checkpoint is of none of them where its cursor is taken. -/
structure Feed (options : Options) (stored : Option Checkpoint) where
  payments : List PaymentDTO
  ids : (payments.map PaymentDTO.id).Nodup
  cursors : (payments.map PaymentDTO.cursor).Nodup
  initial : ∀ payment ∈ payments, startCursor options stored ≠ some payment.cursor
  unseen : ∀ payment ∈ payments, payment.id ∉ startSeen options stored

/-- A connection: what it may still repeat, and the place of the next payment. -/
structure Line where
  repeats : List PaymentDTO
  place : Nat
deriving DecidableEq, Repr

/-- The function, the store, the calls of `onPayment` and those that returned, and the connection. -/
structure System (options : Options) where
  machine : Machine options
  stored : Option Checkpoint
  called : List PaymentDTO
  handled : List PaymentDTO
  line : Option Line

/-- What happens. Handlers fail with an error. -/
inductive Choice where
  | abort
  | connected
  | connectFailed (error : StreamError)
  | repeated (index : Nat)
  | next
  | ended
  | failed (error : StreamError)
  | handled
  | handlerFailed (error : StreamError)
  | saved
  /-- perhaps after the checkpoint was written -/
  | saveFailed (written : Bool) (error : Option StreamError)
  | slept
  | sleepFailed (error : StreamError)
deriving DecidableEq, Repr

section System
variable {stored : Option Checkpoint} (feed : Feed options stored)

/-- The place of the first payment behind a cursor. -/
def Feed.after (cursor : Option String) : Option Nat :=
  if cursor = startCursor options stored then some 0
  else (feed.payments.findIdx? fun payment => some payment.cursor = cursor).map (· + 1)

def System.tell (s : System options) (occurrence : Occurrence) : System options :=
  { s with machine := s.machine.advance occurrence }

/-- A payment comes over the connection, and perhaps `onPayment` is called with it. -/
def System.receives (s : System options) (payment : PaymentDTO) (line : Line) : System options :=
  let machine := s.machine.advance (.payment payment)
  { s with machine, line, called := if machine.phase = .handling payment then s.called ++ [payment] else s.called }

/-- A connection goes on behind its cursor, and first repeats what it will of the payments that were handled last. -/
def System.connect (s : System options) : System options :=
  { s.tell .connected with
    line := (feed.after s.machine.cursor).map fun place => ⟨lastOnes options.dedupWindow s.handled,place⟩ }

/-- The server repeats one of these payments. -/
def System.repeats (s : System options) (index : Nat) : System options :=
  match s.line with
  | none => s
  | some line =>
    match line.repeats[index]? with
    | none => s
    | some payment => s.receives payment line

/-- The server sends the next payment, and repeats none from then on. -/
def System.sends (s : System options) : System options :=
  match s.line with
  | none => s
  | some line =>
    match feed.payments[line.place]? with
    | none => s
    | some payment => s.receives payment ⟨[],line.place + 1⟩

/-- What happens while the function does not wait for it passes by. -/
def System.happens (s : System options) : Choice → System options
  | .abort => s.tell .abort
  | .connected =>
    match s.machine.phase with
    | .connecting => s.connect feed
    | _ => s
  | .connectFailed error =>
    match s.machine.phase with
    | .connecting => s.tell (.connectFailed error)
    | _ => s
  | .repeated index =>
    match s.machine.phase with
    | .reading => s.repeats index
    | _ => s
  | .next =>
    match s.machine.phase with
    | .reading => s.sends feed
    | _ => s
  | .ended =>
    match s.machine.phase with
    | .reading => s.tell .ended
    | _ => s
  | .failed error =>
    match s.machine.phase with
    | .reading => s.tell (.failed error)
    | _ => s
  | .handled =>
    match s.machine.phase with
    | .handling payment => { s.tell .handled with handled := s.handled ++ [payment] }
    | _ => s
  | .handlerFailed error =>
    match s.machine.phase with
    | .handling _ => s.tell (.handlerFailed (some error))
    | _ => s
  | .saved =>
    match s.machine.phase with
    | .saving payment => { s.tell .saved with stored := some payment.checkpoint }
    | _ => s
  | .saveFailed written error =>
    match s.machine.phase with
    | .saving payment =>
      { s.tell (.saveFailed error) with stored := if written then some payment.checkpoint else s.stored }
    | _ => s
  | .slept =>
    match s.machine.phase with
    | .sleeping => s.tell .slept
    | _ => s
  | .sleepFailed error =>
    match s.machine.phase with
    | .sleeping => s.tell (.sleepFailed error)
    | _ => s

def step (s : System options) (choice : Choice) : Unit × System options := ((),s.happens feed choice)

end System

/-- The run begins with what the store holds, whether it is used or not. -/
def System.start (options : Options) (loaded : Option Checkpoint) (aborted : Bool) : System options :=
  ⟨Machine.start options loaded aborted,loaded,[],[],none⟩

end StellarAlerts.ResilientStream
