import Mathlib.Data.List.Infix
import StellarAlerts.Interleaving

/-!
The delivery of a notification, for the rows and the gate of one delivery key. The four
writers of `delivery.ts` and `deliverWithIdempotency` are programs of the queries they
send, so that any number of them interleave at every query, and every query may fail or
lose its answer.
-/
namespace StellarAlerts.Delivery
open Interleaving RemoteCalls

inductive DeliveryStatus where
  | pending
  | in_progress
  | delivered
  | failed
  | exhausted
  | suppressed
  | skipped
deriving DecidableEq, Repr

def DeliveryStatus.text : DeliveryStatus → String
  | .pending => "pending"
  | .in_progress => "in_progress"
  | .delivered => "delivered"
  | .failed => "failed"
  | .exhausted => "exhausted"
  | .suppressed => "suppressed"
  | .skipped => "skipped"

def TERMINAL_DELIVERY_STATES : List DeliveryStatus := [.delivered,.exhausted,.suppressed,.skipped]
def isTerminalDeliveryStatus (status : DeliveryStatus) : Bool := TERMINAL_DELIVERY_STATES.contains status

def VALID_LIFECYCLE_TRANSITIONS : DeliveryStatus → List DeliveryStatus
  | .pending => [.in_progress,.suppressed,.skipped]
  | .in_progress => [.delivered,.failed,.exhausted,.suppressed]
  | .failed => [.in_progress,.exhausted,.suppressed]
  | .delivered => []
  | .exhausted => []
  | .suppressed => []
  | .skipped => []

def validateDeliveryTransition (current next : DeliveryStatus) : Except String Unit :=
  if isTerminalDeliveryStatus current then
    .error ("Illegal delivery transition: delivery is already in terminal state \"" ++ current.text ++ "\"")
  else if (VALID_LIFECYCLE_TRANSITIONS current).contains next then .ok ()
  else .error ("Illegal delivery transition from \"" ++ current.text ++ "\" to \"" ++ next.text ++ "\"")

structure NotificationDelivery where
  id : Nat
  status : DeliveryStatus
  currentAttempt : Nat
  maxAttempts : Nat
  lastError : Option String
  deliveredAt : Option Nat
  terminalAt : Option Nat
deriving DecidableEq, Repr

structure NotificationDeliveryAttempt where
  id : Nat
  deliveryId : Option Nat
  providerRequestId : Option String
  status : DeliveryStatus
  attempt : Nat
  error : Option String
deriving DecidableEq, Repr

inductive DeliveryUpdate where
  | inProgress (nextAttempt : Nat)
  | delivered
  | failed (isExhausted : Bool) (error : String)
  | suppressed (reason : String)
deriving DecidableEq, Repr

def DeliveryUpdate.status : DeliveryUpdate → DeliveryStatus
  | .inProgress _ => .in_progress
  | .delivered => .delivered
  | .failed isExhausted _ => if isExhausted then .exhausted else .failed
  | .suppressed _ => .suppressed

def DeliveryUpdate.apply (now : Nat) (d : NotificationDelivery) : DeliveryUpdate → NotificationDelivery
  | .inProgress nextAttempt => { d with currentAttempt := nextAttempt, status := .in_progress }
  | .delivered => { d with status := .delivered, deliveredAt := some now, terminalAt := some now, lastError := none }
  | .failed isExhausted error =>
    { d with status := if isExhausted then .exhausted else .failed, lastError := some error,
             terminalAt := if isExhausted then some now else none }
  | .suppressed reason => { d with status := .suppressed, lastError := some reason, terminalAt := some now }

inductive AttemptUpdate where
  | delivered (providerRequestId : Option String)
  | failed (error : String)
deriving DecidableEq, Repr

/-- An absent provider id is left as it is. -/
def AttemptUpdate.apply (row : NotificationDeliveryAttempt) : AttemptUpdate → NotificationDeliveryAttempt
  | .delivered providerRequestId =>
    { row with status := .delivered, providerRequestId := providerRequestId.or row.providerRequestId }
  | .failed error => { row with status := .failed, error := some error }

/-- The gate's token and the time from which it is gone. -/
structure Gate where
  token : Nat
  expiresAt : Nat
deriving DecidableEq, Repr

/-- The rows of one delivery key, its gate, and what the dispatch callback acts on.
    Identifiers and tokens are numbers that are given out once. -/
structure World (Env : Type) where
  now : Nat
  notificationDelivery : Option NotificationDelivery
  notificationDeliveryAttempt : List NotificationDeliveryAttempt
  gate : Option Gate
  nextId : Nat
  env : Env

/-- What the functions ask of Postgres, of Redis and, in the dispatch callback, of the provider. -/
inductive Query (Provider : Type) where
  | findDelivery
  | findDeliveredAttempt
  | countAttempts
  | upsertDelivery (nextAttempt : Nat)
  | updateDelivery (id : Nat) (data : DeliveryUpdate)
  | updateManyDelivery (data : DeliveryUpdate)
  | createAttempt (deliveryId : Option Nat) (attempt : Nat)
  | updateAttempt (attemptId : Nat) (data : AttemptUpdate)
  | randomUUID
  | setGate (token ttlMs : Nat)
  | evalReleaseGate (token : Nat)
  | provider (p : Provider)

section Programs
variable {Provider : Type} {Reply : Provider → Type}

def Value (Reply : Provider → Type) : Query Provider → Type
  | .findDelivery => Option NotificationDelivery
  | .findDeliveredAttempt => Option Nat
  | .countAttempts => Nat
  | .upsertDelivery _ => Nat
  | .updateDelivery _ _ => Unit
  | .updateManyDelivery _ => Unit
  | .createAttempt _ _ => Nat
  | .updateAttempt _ _ => NotificationDeliveryAttempt
  | .randomUUID => Nat
  | .setGate _ _ => Bool
  | .evalReleaseGate _ => Nat
  | .provider p => Reply p

abbrev Code (Reply : Provider → Type) (α : Type) := Interleaving.Code (Query Provider) (Value Reply) α

/-- One query, under the type of its answer. -/
def ask (q : Query Provider) : Code Reply (Value Reply q) := query q

/-- Anything but an absent or empty text. -/
def truthy (text : Option String) : Bool := text.any (· != "")

/-- `text.includes(part)`. -/
def includes (text part : String) : Bool := decide (part.toList <:+: text.toList)

structure DeliveryDescriptor where
  paymentId : String
  channel : String
  destination : String
  userId : Option String
deriving DecidableEq, Repr

def DEFAULT_GATE_TTL_MS : Nat := 30000
def DELIVERY_GATE_RETRY : Nat := 2

/-- The attempts at the gate, of which `left` may follow this one; a Redis error fails open. -/
def acquireFrom (token ttlMs left : Nat) : Code Reply (Option Nat) := do
  let taken : Bool ← (try ask (.setGate token ttlMs) catch _ => pure true)
  if taken then pure (some token)
  else
    match left with
    | 0 => pure none
    | left + 1 => acquireFrom token ttlMs left

def acquireDeliveryGate (ttlMs : Nat) : Code Reply (Option Nat) := do
  let token ← ask .randomUUID
  acquireFrom token ttlMs DELIVERY_GATE_RETRY

def releaseDeliveryGate (token : Nat) : Code Reply Bool :=
  try
    let result : Nat ← ask (.evalReleaseGate token)
    pure (result == 1)
  catch _ => pure false

def alreadyDelivered : Code Reply Bool := do
  let terminal ←
    try
      let delivery : Option NotificationDelivery ← ask .findDelivery
      pure (delivery.any fun d => isTerminalDeliveryStatus d.status)
    catch _ => pure false
  if terminal then pure true
  else
    let attempt : Option Nat ← ask .findDeliveredAttempt
    pure attempt.isSome

structure AttemptInput where
  paymentId : Option String
  destination : Option String
  deliveryId : Option Nat
deriving DecidableEq, Repr

/-- The lookup at the head of `recordDeliveryAttempt`. -/
def findOpenDelivery (input : AttemptInput) : Code Reply (Option Nat) :=
  try
    match ← ask .findDelivery with
    | some existingDelivery =>
      if isTerminalDeliveryStatus existingDelivery.status then
        throw ("Cannot record attempt for delivery in terminal state \"" ++ existingDelivery.status.text ++ "\"")
      else pure (some existingDelivery.id)
    | none => pure input.deliveryId
  catch err =>
    if includes err "terminal state" then throw err else pure input.deliveryId

/-- The delivery is put in progress; errors are ignored. -/
def beginAttempt (input : AttemptInput) (nextAttempt : Nat) : Option Nat → Code Reply (Option Nat)
  | none =>
    if truthy input.paymentId && truthy input.destination then
      try some <$> ask (.upsertDelivery nextAttempt) catch _ => pure none
    else pure none
  | some deliveryId => do
    try ask (.updateDelivery deliveryId (.inProgress nextAttempt)) catch _ => pure ()
    pure (some deliveryId)

def recordDeliveryAttempt (input : AttemptInput) : Code Reply Nat := do
  let found ← findOpenDelivery input
  let prior : Nat ← ask .countAttempts
  let nextAttempt := prior + 1
  let deliveryId ← beginAttempt input nextAttempt found
  ask (.createAttempt deliveryId nextAttempt)

def markDeliveryDelivered (attemptId : Nat) (providerRequestId : Option String) : Code Reply Unit := do
  let attempt : NotificationDeliveryAttempt ← ask (.updateAttempt attemptId (.delivered providerRequestId))
  try
    match attempt.deliveryId with
    | some parentDeliveryId => ask (.updateDelivery parentDeliveryId .delivered)
    | none => ask (.updateManyDelivery .delivered)
  catch _ => pure ()

/-- `error.substring(0, limit)` counts UTF-16 units; half of a pair is stored as the replacement character. -/
def substringChars : Nat → List Char → List Char
  | _, [] => []
  | limit, c :: rest =>
    let width := if c.toNat < 0x10000 then 1 else 2
    if width ≤ limit then c :: substringChars (limit - width) rest
    else if limit = 1 then ['\uFFFD']
    else []

def substring2000 (error : String) : String := String.ofList (substringChars 2000 error.toList)

def markDeliveryFailed (attemptId : Nat) (error : String) : Code Reply Unit := do
  let _ ← ask (.updateAttempt attemptId (.failed (substring2000 error)))
  try
    match ← ask .findDelivery with
    | some parent =>
      let isExhausted := decide (parent.maxAttempts ≤ parent.currentAttempt)
      ask (.updateDelivery parent.id (.failed isExhausted (substring2000 error)))
    | none => pure ()
  catch _ => pure ()

def markDeliverySuppressed (reason : Option String) : Code Reply Unit :=
  try ask (.updateManyDelivery (.suppressed (reason.getD "Delivery suppressed"))) catch _ => pure ()

inductive OutcomeStatus where
  | delivered
  | skipped
deriving DecidableEq, Repr

structure DeliveryOutcome where
  dispatched : Bool
  status : OutcomeStatus
  attemptId : Option Nat
deriving DecidableEq, Repr

/-- The `try` block, which a call enters past the gate. An error is logged and thrown on. -/
def dispatchOnce (descriptor : DeliveryDescriptor) (dispatch : Nat → Code Reply Unit) : Code Reply DeliveryOutcome := do
  if ← alreadyDelivered then pure ⟨false,.skipped,none⟩
  else
    let attemptId ← recordDeliveryAttempt ⟨some descriptor.paymentId,some descriptor.destination,none⟩
    dispatch attemptId
    markDeliveryDelivered attemptId none
    pure ⟨true,.delivered,some attemptId⟩

def deliverWithIdempotency (descriptor : DeliveryDescriptor) (dispatch : Nat → Code Reply Unit)
    (gateTtlMs : Option Nat) : Code Reply DeliveryOutcome := do
  if ← alreadyDelivered then pure ⟨false,.skipped,none⟩
  else
    match ← acquireDeliveryGate (gateTtlMs.getD DEFAULT_GATE_TTL_MS) with
    | none =>
      let delivered ← alreadyDelivered
      pure ⟨false,if delivered then .delivered else .skipped,none⟩
    | some token =>
      withFinally (dispatchOnce descriptor dispatch) (do let _ ← releaseDeliveryGate token)

end Programs

section Following
variable {Provider Place : Type} {Reply : Provider → Type} {allowed : Place → Query Provider → Prop}
  {after : Place → (q : Query Provider) → Except String (Value Reply q) → Place} {place : Place}

@[simp] theorem follows_ask {q : Query Provider} {post : Except String (Value Reply q) → Place → Prop} :
    Follows allowed after post place (ask q : Code Reply (Value Reply q)).run ↔
      allowed place q ∧ ∀ answer, post answer (after place q answer) := Iff.rfl

theorem alreadyDelivered_follows (there : Place) {post : Except String Bool → Place → Prop}
    (lookup : allowed place .findDelivery ∧ ∀ answer, after place .findDelivery answer = there)
    (search : allowed there .findDeliveredAttempt) (terminal : post (.ok true) there)
    (searched : ∀ answer : Except String (Option Nat),
      post (answer.map Option.isSome) (after there .findDeliveredAttempt answer)) :
    Follows allowed after post place (alreadyDelivered : Code Reply Bool).run := by
  have rest : ∀ isTerminal : Bool, Follows allowed after post there
      (if isTerminal then pure true else do
        let attempt : Option Nat ← ask .findDeliveredAttempt
        pure attempt.isSome : Code Reply Bool).run := by
    intro isTerminal
    cases isTerminal with
    | true => exact terminal
    | false =>
      refine follows_bindCode.mpr ⟨search,fun answer => ?_⟩
      cases answer with
      | ok attempt => exact searched (.ok attempt)
      | error e => exact searched (.error e)
  refine follows_bindCode.mpr (follows_tryCatch.mpr (follows_bindCode.mpr ⟨lookup.1,fun answer => ?_⟩))
  rw [lookup.2]
  cases answer with
  | ok delivery => exact rest _
  | error e => exact rest false

variable {post : Except String (Option Nat) → Place → Prop}

/-- The gate is set under one token until it is taken, Redis fails, or the attempts are used up. -/
theorem acquireFrom_follows {token ttlMs : Nat} (set : allowed place (.setGate token ttlMs))
    (refused : after place (.setGate token ttlMs) (.ok false) = place) (none : post (.ok none) place)
    (taken : post (.ok (some token)) (after place (.setGate token ttlMs) (.ok true)))
    (failed : ∀ e, post (.ok (some token)) (after place (.setGate token ttlMs) (.error e))) (left : Nat) :
    Follows allowed after post place (acquireFrom token ttlMs left : Code Reply (Option Nat)).run := by
  induction left with
  | zero =>
    unfold acquireFrom
    refine follows_bindCode.mpr (follows_tryCatch.mpr ⟨set,fun answer => ?_⟩)
    cases answer with
    | ok wasSet =>
      cases wasSet with
      | true => exact taken
      | false => rw [refused]; exact none
    | error e => exact failed e
  | succ left ih =>
    unfold acquireFrom
    refine follows_bindCode.mpr (follows_tryCatch.mpr ⟨set,fun answer => ?_⟩)
    cases answer with
    | ok wasSet =>
      cases wasSet with
      | true => exact taken
      | false => rw [refused]; exact ih
    | error e => exact failed e

theorem findOpenDelivery_follows (lookup : Stays allowed after place .findDelivery) (failed : ∀ e, post (.error e) place)
    (found : ∀ id, post (.ok id) place) (input : AttemptInput) :
    Follows allowed after post place (findOpenDelivery input : Code Reply (Option Nat)).run := by
  have caught : ∀ e, Follows allowed after post place
      (if includes e "terminal state" then throw e else pure input.deliveryId : Code Reply (Option Nat)).run := by
    intro e
    split
    · exact failed e
    · exact found _
  refine follows_tryCatch.mpr (follows_bindCode.mpr ⟨lookup.1,fun answer => ?_⟩)
  rw [lookup.2]
  rcases answer with e | existing
  · exact caught e
  · cases existing with
    | none => exact found _
    | some d =>
      show Follows _ _ _ _ (ExceptT.run (if isTerminalDeliveryStatus d.status then _ else _))
      split
      · exact caught _
      · exact found _

theorem beginAttempt_follows {nextAttempt : Nat} (upsert : Stays allowed after place (.upsertDelivery nextAttempt))
    (update : ∀ id, Stays allowed after place (.updateDelivery id (.inProgress nextAttempt)))
    (begun : ∀ id, post (.ok id) place) (input : AttemptInput) (found : Option Nat) :
    Follows allowed after post place (beginAttempt input nextAttempt found : Code Reply (Option Nat)).run := by
  cases found with
  | none =>
    simp only [beginAttempt]
    split
    · refine follows_tryCatch.mpr (follows_map.mpr (follows_ask.mpr ⟨upsert.1,fun answer => ?_⟩))
      rw [upsert.2]
      cases answer with
      | ok id => exact begun _
      | error e => exact begun none
    · exact begun none
  | some id =>
    refine follows_bindCode.mpr (follows_tryCatch.mpr (follows_ask.mpr ⟨(update id).1,fun answer => ?_⟩))
    rw [(update id).2]
    cases answer with
    | ok _ => exact begun (some id)
    | error e => exact begun (some id)

/-- The queries before the attempt's row is created leave the place. -/
theorem recordDeliveryAttempt_follows {post : Except String Nat → Place → Prop}
    (lookup : Stays allowed after place .findDelivery) (count : Stays allowed after place .countAttempts)
    (upsert : ∀ n, Stays allowed after place (.upsertDelivery n))
    (update : ∀ id n, Stays allowed after place (.updateDelivery id (.inProgress n)))
    (create : ∀ id n, allowed place (.createAttempt id n)) (failed : ∀ e, post (.error e) place)
    (created : ∀ id n answer, post answer (after place (.createAttempt id n) answer)) (input : AttemptInput) :
    Follows allowed after post place (recordDeliveryAttempt input : Code Reply Nat).run := by
  refine follows_bindCode.mpr (findOpenDelivery_follows lookup failed (fun found => ?_) input)
  refine follows_bindCode.mpr (follows_ask.mpr ⟨count.1,fun answer => ?_⟩)
  rw [count.2]
  rcases answer with e | prior
  · exact failed e
  · refine follows_bindCode.mpr (beginAttempt_follows (upsert _) (fun id => update id _) (fun id => ?_) input found)
    exact follows_ask.mpr ⟨create id _,created id _⟩

theorem markDeliveryDelivered_follows {post : Except String Unit → Place → Prop} {attemptId : Nat}
    {providerRequestId : Option String} (mark : allowed place (.updateAttempt attemptId (.delivered providerRequestId)))
    (failed : ∀ e, post (.error e) (after place (.updateAttempt attemptId (.delivered providerRequestId)) (.error e)))
    (marked : ∀ row, post (.ok ()) (after place (.updateAttempt attemptId (.delivered providerRequestId)) (.ok row)))
    (update : ∀ row id, Stays allowed after (after place (.updateAttempt attemptId (.delivered providerRequestId)) (.ok row))
      (.updateDelivery id .delivered))
    (updateMany : ∀ row, Stays allowed after
      (after place (.updateAttempt attemptId (.delivered providerRequestId)) (.ok row)) (.updateManyDelivery .delivered)) :
    Follows allowed after post place (markDeliveryDelivered attemptId providerRequestId : Code Reply Unit).run := by
  refine follows_asked mark (fun e => failed e) fun row => ?_
  refine follows_tryCatch.mpr ?_
  show Follows _ _ _ _ (ExceptT.run (match row.deliveryId with | some id => _ | none => _))
  split
  · rename_i id _
    refine ⟨(update row id).1,fun answer => ?_⟩
    rw [(update row id).2]
    cases answer with
    | ok _ => exact marked row
    | error e => exact marked row
  · refine ⟨(updateMany row).1,fun answer => ?_⟩
    rw [(updateMany row).2]
    cases answer with
    | ok _ => exact marked row
    | error e => exact marked row

end Following

section Exec
variable {Provider Env : Type} {Reply : Provider → Type}

def World.update {Env : Type} (w : World Env) (data : DeliveryUpdate) : World Env :=
  { w with notificationDelivery := w.notificationDelivery.map fun d => data.apply w.now d }

/-- `create` of a delivery; attempts are counted up to the default of five. -/
def World.createDelivery (w : World Env) (nextAttempt : Nat) : World Env :=
  { w with notificationDelivery := some ⟨w.nextId,.in_progress,nextAttempt,5,none,none,none⟩, nextId := w.nextId + 1 }

def World.createAttempt (w : World Env) (deliveryId : Option Nat) (attempt : Nat) : World Env :=
  { w with
    notificationDeliveryAttempt :=
      w.notificationDeliveryAttempt ++ [⟨w.nextId,deliveryId,none,.pending,attempt,none⟩]
    nextId := w.nextId + 1 }

def World.updateAttempt (w : World Env) (attemptId : Nat) (data : AttemptUpdate) : World Env :=
  { w with notificationDeliveryAttempt := w.notificationDeliveryAttempt.map fun row =>
      if row.id = attemptId then data.apply row else row }

/-- A gate that has not run out keeps others from setting it. -/
def World.gateTaken (w : World Env) : Bool := w.gate.any fun gate => w.now < gate.expiresAt

/-- The answer to a query and the state that it leaves; what the dispatch callback calls is answered by `provide`. -/
def exec (provide : Env → (p : Provider) → Except String (Reply p) × Env) (w : World Env) :
    (q : Query Provider) → Except String (Value Reply q) × World Env
  | .findDelivery => (.ok w.notificationDelivery,w)
  | .findDeliveredAttempt =>
    (.ok ((w.notificationDeliveryAttempt.find? fun row => row.status = .delivered).map (·.id)),w)
  | .countAttempts => (.ok w.notificationDeliveryAttempt.length,w)
  | .upsertDelivery nextAttempt =>
    match w.notificationDelivery with
    | some d => (.ok d.id,w.update (.inProgress nextAttempt))
    | none => (.ok w.nextId,w.createDelivery nextAttempt)
  | .updateDelivery id data =>
    if w.notificationDelivery.any fun d => d.id = id then (.ok (),w.update data)
    else (.error "An operation failed because it depends on one or more records that were required but not found.",w)
  | .updateManyDelivery data => (.ok (),w.update data)
  | .createAttempt deliveryId attempt =>
    if w.notificationDeliveryAttempt.any fun row => row.attempt = attempt then
      (.error "Unique constraint failed on the fields: (deliveryKey,attempt)",w)
    else (.ok w.nextId,w.createAttempt deliveryId attempt)
  | .updateAttempt attemptId data =>
    match w.notificationDeliveryAttempt.find? fun row => row.id = attemptId with
    | some row => (.ok (data.apply row),w.updateAttempt attemptId data)
    | none => (.error "An operation failed because it depends on one or more records that were required but not found.",w)
  | .randomUUID => (.ok w.nextId,{ w with nextId := w.nextId + 1 })
  | .setGate token ttlMs =>
    if ttlMs = 0 then (.error "ERR invalid expire time in 'set' command",w)
    else if w.gateTaken then (.ok false,w)
    else (.ok true,{ w with gate := some ⟨token,w.now + ttlMs⟩ })
  | .evalReleaseGate token =>
    if w.gateTaken && w.gate.any fun gate => gate.token = token then (.ok (1 : Nat),{ w with gate := none })
    else (.ok (0 : Nat),w)
  | .provider p =>
    let (answer,env) := provide w.env p
    (answer,{ w with env := env })

theorem exec_setGate (provide : Env → (p : Provider) → Except String (Reply p) × Env) (w : World Env) (token ttlMs : Nat) :
    ∃ gate, (exec provide w (.setGate token ttlMs)).2 = { w with gate } := by
  simp only [exec]
  split
  · exact ⟨w.gate,rfl⟩
  · split
    · exact ⟨w.gate,rfl⟩
    · exact ⟨_,rfl⟩

theorem exec_evalReleaseGate (provide : Env → (p : Provider) → Except String (Reply p) × Env) (w : World Env)
    (token : Nat) : ∃ gate, (exec provide w (.evalReleaseGate token)).2 = { w with gate } := by
  simp only [exec]
  split
  · exact ⟨none,rfl⟩
  · exact ⟨w.gate,rfl⟩

/-- Time passes. -/
def elapse (ms : Nat) (w : World Env) : World Env := { w with now := w.now + ms }

end Exec

end StellarAlerts.Delivery
