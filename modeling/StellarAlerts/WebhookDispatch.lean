import StellarAlerts.Delivery

/-!
Webhook deliveries. `processAlertDispatch` hands each webhook of a payment to
`deliverWithIdempotency` with a callback that logs what keeps it from the endpoint and
then returns like after a success, so that the delivery is marked. The record tells of
an acknowledgement exactly where no callback ends that way (`delivered_acknowledged`).
-/
namespace StellarAlerts.WebhookDispatch
open Histories Interleaving RemoteCalls Delivery

inductive CircuitState where
  | closed
  | opened
  | halfOpen
deriving DecidableEq, Repr

structure WebhookCircuitBreaker where
  state : CircuitState
  openedAt : Option Nat
deriving DecidableEq, Repr

structure Webhook where
  url : String
  payloadTemplate : Option String
  circuitBreaker : Option WebhookCircuitBreaker
deriving DecidableEq, Repr

structure WebhookLog where
  requestUrl : Option String
  requestPayload : Option String
  statusCode : Option Nat
  responseBody : Option String
  error : Option String
deriving DecidableEq, Repr

structure Response where
  status : Nat
  body : String
deriving DecidableEq, Repr

/-- `response.ok`. -/
def Response.success (response : Response) : Bool := 200 ≤ response.status && response.status < 300

structure PayloadTemplateFailure where
  phase : String
  error : String
deriving DecidableEq, Repr

/-- An error that `dispatchWebhookAndLog` catches. -/
structure WebhookError where
  message : String
  statusCode : Option Nat
  responseBody : Option String
deriving DecidableEq, Repr

def CIRCUIT_BREAKER_THRESHOLD : Nat := 10
def CIRCUIT_BREAKER_TIMEOUT : Nat := 60000
def WEBHOOK_LOG_RESPONSE_LIMIT : Nat := 5000
def WEBHOOK_LOG_PAYLOAD_LIMIT : Nat := 10000

/-- What the callback asks of the database, the clock, the network and its process.
    `fire` goes through the circuit breaker, whose refusals are errors. -/
inductive Ask where
  | acquireProviderBudget
  | findWebhook
  | validateUrlForSsrf (url : String)
  | dateNow
  | createWebhookLog (data : WebhookLog)
  | upsertCircuitBreaker (state : CircuitState) (failureCount : Nat)
  | buildDualSignatureHeaders (payload : String)
  | fire (url payload : String)
  | recordRateLimit (url : String)
  | breakerStats
  | findWebhookUser
deriving DecidableEq, Repr

def Reply : Ask → Type
  | .acquireProviderBudget => Bool
  | .findWebhook => Option Webhook
  | .validateUrlForSsrf _ => Unit
  | .dateNow => Nat
  | .createWebhookLog _ => Unit
  | .upsertCircuitBreaker _ _ => Unit
  | .buildDualSignatureHeaders _ => Unit
  | .fire _ _ => Response
  | .recordRateLimit _ => Nat
  | .breakerStats => Option Nat
  | .findWebhookUser => Option String

def askProvider (a : Ask) : Code Reply (Reply a) := ask (.provider a)
def substring (limit : Nat) (text : String) : String := String.ofList (substringChars limit text.toList)

/-- The columns of a log row that `requestContext` fills. -/
def requestContext (targetUrl requestPayload : Option String) : WebhookLog :=
  ⟨targetUrl,requestPayload.map (substring WEBHOOK_LOG_PAYLOAD_LIMIT),none,none,none⟩

def createWebhookLog (data : WebhookLog) : Code Reply Unit := askProvider (.createWebhookLog data)

/-- The state is also written to Redis, on a best-effort basis. -/
def updateCircuitBreakerState (state : CircuitState) (failureCount : Nat) : Code Reply Unit :=
  askProvider (.upsertCircuitBreaker state failureCount)

/-- The stored circuit is open; one that has cooled down becomes half-open. -/
def circuitOpen (webhook : Webhook) : Code Reply Bool :=
  match webhook.circuitBreaker with
  | some ⟨.opened,openedAt⟩ => do
    let now : Nat ← askProvider .dateNow
    if now - openedAt.getD 0 < CIRCUIT_BREAKER_TIMEOUT then pure true
    else
      updateCircuitBreakerState .halfOpen 0
      pure false
  | _ => pure false

section Dispatch
variable (applyWebhookPayloadTemplate : String → Option String → Except PayloadTemplateFailure String)

/-- The checks before the request. A refusal is logged and leaves no body to send. -/
def prepare (payload : String) (webhook : Webhook) : Code Reply (Option String) := do
  let blocked : Option String ←
    try
      askProvider (.validateUrlForSsrf webhook.url)
      pure none
    catch message => pure (some message)
  match blocked with
  | some message =>
    createWebhookLog { requestContext (some webhook.url) none with error := some ("SSRF blocked: " ++ message) }
    pure none
  | none =>
    if ← circuitOpen webhook then
      createWebhookLog { requestContext (some webhook.url) none with
        error := some "Circuit breaker is open, endpoint temporarily disabled" }
      pure none
    else
      match applyWebhookPayloadTemplate payload webhook.payloadTemplate with
      | .error failure =>
        createWebhookLog { requestContext (some webhook.url) none with
          error := some ("Payload template " ++ failure.phase ++ " error: " ++ failure.error) }
        pure none
      | .ok body => pure (some body)

/-- The request and its log row. The breaker's action turns 429 and 5xx into errors; any other answer is taken for a success. -/
def send (webhook : Webhook) (body : String) : Code Reply (Option WebhookError) := do
  askProvider (.buildDualSignatureHeaders body)
  let response : Response ← askProvider (.fire webhook.url body)
  let responseBody := substring WEBHOOK_LOG_RESPONSE_LIMIT response.body
  if response.status = 429 then
    pure (some ⟨"Rate limited: " ++ toString response.status,some 429,some responseBody⟩)
  else if 500 ≤ response.status then
    pure (some ⟨"Server error: " ++ toString response.status,some response.status,some responseBody⟩)
  else
    createWebhookLog { requestContext (some webhook.url) (some body) with
      statusCode := some response.status, responseBody := some responseBody }
    if webhook.circuitBreaker.any fun breaker => breaker.state = .halfOpen then
      updateCircuitBreakerState .closed 0
    pure none

/-- The failure is counted and logged, and its user looked up for the event. -/
def recordFailure (context : WebhookLog) (error : WebhookError) : Code Reply Unit := do
  let stats : Option Nat ← askProvider .breakerStats
  let failureCount := if stats.getD 0 = 0 then 1 else stats.getD 0
  updateCircuitBreakerState (if CIRCUIT_BREAKER_THRESHOLD ≤ failureCount then .opened else .closed) failureCount
  createWebhookLog { context with
    statusCode := error.statusCode, responseBody := error.responseBody, error := some (substring 1000 error.message) }
  let _ : Option String ← askProvider .findWebhookUser

/-- The `catch` block; `retry` is what follows a first rate limit. -/
def handleError (retry : Option (Code Reply Unit)) (targetUrl requestPayload : Option String) (error : WebhookError) :
    Code Reply Unit :=
  if includes error.message "breaker is open" then
    createWebhookLog { requestContext targetUrl requestPayload with error := some "Circuit breaker is open" }
  else if (error.statusCode = some 429 || includes error.message "Rate limited") && truthy targetUrl then do
    let delayMs : Nat ← askProvider (.recordRateLimit (targetUrl.getD ""))
    createWebhookLog { requestContext targetUrl requestPayload with
      statusCode := some 429, responseBody := error.responseBody,
      error := some ("Endpoint rate limited webhook delivery; retrying after " ++ toString delayMs ++ "ms") }
    retry.getD (pure ())
  else recordFailure (requestContext targetUrl requestPayload) error

/-- The `try` block past the lookup of the webhook, with its `catch` block. -/
def dispatchTo (payload : String) (retry : Option (Code Reply Unit)) (webhook : Webhook) : Code Reply Unit := do
  let prepared : Except String (Option String) ←
    try Except.ok <$> prepare applyWebhookPayloadTemplate payload webhook catch message => pure (.error message)
  match prepared with
  | .error message => handleError retry (some webhook.url) none ⟨message,none,none⟩
  | .ok none => pure ()
  | .ok (some body) =>
    let raised : Option WebhookError ←
      try send webhook body catch message => pure (some ⟨message,none,none⟩)
    match raised with
    | none => pure ()
    | some error => handleError retry (some webhook.url) (some body) error

def dispatchWith (payload : String) (retry : Option (Code Reply Unit)) : Code Reply Unit := do
  let found : Except String (Option Webhook) ←
    try Except.ok <$> askProvider .findWebhook catch message => pure (.error message)
  match found with
  | .error message => handleError retry none none ⟨message,none,none⟩
  | .ok none => pure ()
  | .ok (some webhook) => dispatchTo applyWebhookPayloadTemplate payload retry webhook

/-- After a first rate limit the whole dispatch is made once more. -/
def dispatchWebhookAndLog (payload : String) (retryAfterBackoff : Bool) : Code Reply Unit :=
  if retryAfterBackoff then dispatchWith applyWebhookPayloadTemplate payload none
  else dispatchWith applyWebhookPayloadTemplate payload
    (some (dispatchWith applyWebhookPayloadTemplate payload none))

/-- An alert job, for one of the webhooks that it is dispatched to. -/
structure Job where
  paymentId : String
  userId : Option String
  webhookId : String
  payload : String

def Job.callback (job : Job) : Code Reply Unit := do
  let _ : Bool ← askProvider .acquireProviderBudget
  dispatchWebhookAndLog applyWebhookPayloadTemplate job.payload false

/-- What `processAlertDispatch` does for the webhook. An error is logged. -/
def Job.program (job : Job) : Program (Query Ask) (Value Reply) (Except String Unit) :=
  (tryCatch
    (discard (deliverWithIdempotency ⟨job.paymentId,"webhook",job.webhookId,job.userId⟩
      (fun _ => job.callback applyWebhookPayloadTemplate) none))
    fun _ => pure () : Code Reply Unit).run

end Dispatch

/-- Where the callback stands: before the answer of the endpoint, with an answer to log, with a circuit to close, with an error that was
    caught, with a rate limit to log, or with a failure to log. -/
inductive Stage where
  | trying (webhook : Option Webhook)
  | answered (halfOpen : Bool)
  | closing
  | caught
  | limited
  | failing
deriving DecidableEq, Repr

/-- The callback has not started, runs (after a rate limit for a second time), or has returned; it has had an answer in 2xx or not. -/
inductive Place where
  | before
  | calling (retried acknowledged : Bool) (stage : Stage)
  | finished (acknowledged : Bool)
deriving DecidableEq, Repr

def Stage.allows : Stage → Ask → Prop
  | .trying none, .acquireProviderBudget => True
  | .trying none, .findWebhook => True
  | .trying (some _), .validateUrlForSsrf _ => True
  | .trying (some _), .dateNow => True
  | .trying (some _), .createWebhookLog _ => True
  | .trying (some _), .upsertCircuitBreaker _ _ => True
  | .trying (some _), .buildDualSignatureHeaders _ => True
  | .trying (some _), .fire _ _ => True
  | .answered _, .createWebhookLog _ => True
  | .closing, .upsertCircuitBreaker _ _ => True
  | .caught, .createWebhookLog _ => True
  | .caught, .recordRateLimit _ => True
  | .caught, .breakerStats => True
  | .limited, .createWebhookLog _ => True
  | .failing, .upsertCircuitBreaker _ _ => True
  | .failing, .createWebhookLog _ => True
  | .failing, .findWebhookUser => True
  | _, _ => False

def allowed : Place → Query Ask → Prop
  | .before, .provider _ => False
  | .before, .updateAttempt _ _ => False
  | .before, .updateManyDelivery _ => False
  | .before, .updateDelivery _ (.inProgress _) => True
  | .before, .updateDelivery _ _ => False
  | .before, _ => True
  | .calling _ _ _, .evalReleaseGate _ => True
  | .calling _ _ stage, .provider a => stage.allows a
  | .finished _, .updateAttempt _ (.delivered _) => True
  | .finished _, .updateDelivery _ .delivered => True
  | .finished _, .updateManyDelivery .delivered => True
  | .finished _, .evalReleaseGate _ => True
  | _, _ => False

/-- The answers that end the callback, and those that lead to another stage. -/
def Stage.after (retried acknowledged : Bool) : Stage → (a : Ask) → Except String (Reply a) → Place
  | .trying none, .findWebhook, .ok none => .finished acknowledged
  | .trying none, .findWebhook, .ok (some webhook) => .calling retried acknowledged (.trying (some webhook))
  | .trying none, .findWebhook, .error _ => .calling retried acknowledged .caught
  | .trying (some _), .createWebhookLog _, .ok _ => .finished acknowledged
  | .trying (some webhook), .fire _ _, .ok response =>
    if response.status = 429 ∨ 500 ≤ response.status then .calling retried (acknowledged || response.success) .caught
    else .calling retried (acknowledged || response.success)
      (.answered (webhook.circuitBreaker.any fun breaker => breaker.state = .halfOpen))
  | .trying (some webhook), .validateUrlForSsrf _, _ => .calling retried acknowledged (.trying (some webhook))
  | .trying (some _), _, .error _ => .calling retried acknowledged .caught
  | .answered false, .createWebhookLog _, .ok _ => .finished acknowledged
  | .answered true, .createWebhookLog _, .ok _ => .calling retried acknowledged .closing
  | .answered _, _, .error _ => .calling retried acknowledged .caught
  | .closing, .upsertCircuitBreaker _ _, .ok _ => .finished acknowledged
  | .closing, _, .error _ => .calling retried acknowledged .caught
  | .caught, .createWebhookLog _, .ok _ => .finished acknowledged
  | .caught, .recordRateLimit _, .ok _ => .calling retried acknowledged .limited
  | .caught, .breakerStats, .ok _ => .calling retried acknowledged .failing
  | .limited, .createWebhookLog _, .ok _ =>
    if retried then .finished acknowledged else .calling true acknowledged (.trying none)
  | .failing, .findWebhookUser, .ok _ => .finished acknowledged
  | stage, _, _ => .calling retried acknowledged stage

def after : Place → (q : Query Ask) → Except String (Value Reply q) → Place
  | .before, .createAttempt _ _, .ok _ => .calling false false (.trying none)
  | .calling retried acknowledged stage, .provider a, answer => stage.after retried acknowledged a answer
  | place, _, _ => place

/-- The callback is over: it has returned, or it has thrown before that. -/
def Returned (ended : Except String Unit) (place : Place) : Prop :=
  match ended with
  | .ok _ => ∃ acknowledged, place = .finished acknowledged
  | .error _ => ∃ retried acknowledged stage, place = .calling retried acknowledged stage

section Follow
variable {applyWebhookPayloadTemplate : String → Option String → Except PayloadTemplateFailure String}
  {retried acknowledged : Bool}

theorem follows_askProvider {a : Ask} {place : Place} {post : Except String (Reply a) → Place → Prop} :
    Follows allowed after post place (askProvider a).run ↔
      allowed place (.provider a) ∧ ∀ answer : Except String (Reply a), post answer (after place (.provider a) answer) :=
  Iff.rfl

theorem follows_provided {α : Type} {a : Ask} {f : Reply a → Code Reply α} {place : Place} {post : Except String α → Place → Prop}
    (asked : allowed place (.provider a)) (refused : ∀ e, post (.error e) (after place (.provider a) (.error e)))
    (answered : ∀ reply, Follows allowed after post (after place (.provider a) (.ok reply)) (f reply).run) :
    Follows allowed after post place (askProvider a >>= f).run := by
  refine follows_bindCode.mpr (follows_askProvider.mpr ⟨asked,fun answer => ?_⟩)
  cases answer with
  | error e => exact refused e
  | ok reply => exact answered reply

/-- What may follow a first rate limit. -/
def Retries (retried : Bool) : Option (Code Reply Unit) → Prop
  | none => retried = true
  | some again => retried = false ∧
    ∀ acknowledged, Follows allowed after Returned (.calling true acknowledged (.trying none)) again.run

theorem recordFailure_follows (context : WebhookLog) (error : WebhookError) :
    Follows allowed after Returned (.calling retried acknowledged .caught) (recordFailure context error).run := by
  refine follows_provided trivial (fun _ => ⟨_,_,_,rfl⟩) fun stats => ?_
  refine follows_provided trivial (fun _ => ⟨_,_,_,rfl⟩) fun _ => ?_
  refine follows_provided trivial (fun _ => ⟨_,_,_,rfl⟩) fun _ => ?_
  exact follows_provided trivial (fun _ => ⟨_,_,_,rfl⟩) fun _ => ⟨_,rfl⟩

theorem handleError_follows {retry : Option (Code Reply Unit)} (retries : Retries retried retry)
    (targetUrl requestPayload : Option String) (error : WebhookError) :
    Follows allowed after Returned (.calling retried acknowledged .caught)
      (handleError retry targetUrl requestPayload error).run := by
  unfold handleError
  by_cases opened : includes error.message "breaker is open" = true
  · rw [if_pos opened]
    refine follows_askProvider.mpr ⟨trivial,fun answer => ?_⟩
    rcases answer with e | _
    · exact ⟨_,_,_,rfl⟩
    · exact ⟨_,rfl⟩
  rw [if_neg opened]
  split
  · refine follows_provided trivial (fun _ => ⟨_,_,_,rfl⟩) fun delayMs => ?_
    refine follows_provided trivial (fun _ => ⟨_,_,_,rfl⟩) fun _ => ?_
    cases retry with
    | none =>
      obtain rfl : retried = true := retries
      exact ⟨_,rfl⟩
    | some again =>
      obtain ⟨rfl,follows⟩ := retries
      exact follows acknowledged
  · exact recordFailure_follows _ _

theorem circuitOpen_follows (webhook : Webhook) :
    Follows allowed after (fun ended place => match ended with
      | .ok _ => place = .calling retried acknowledged (.trying (some webhook))
      | .error _ => place = .calling retried acknowledged .caught)
      (.calling retried acknowledged (.trying (some webhook))) (circuitOpen webhook).run := by
  unfold circuitOpen
  split
  · refine follows_provided trivial (fun _ => rfl) fun now => ?_
    show Follows _ _ _ _ (ExceptT.run (ite _ _ _))
    split
    · rfl
    · exact follows_provided trivial (fun _ => rfl) fun _ => rfl
  · rfl

theorem refuse_follows {webhook : Webhook} (data : WebhookLog) :
    Follows allowed after (fun ended place => match ended with
      | .ok none => place = .finished acknowledged
      | .ok (some _) => place = .calling retried acknowledged (.trying (some webhook))
      | .error _ => place = .calling retried acknowledged .caught)
      (.calling retried acknowledged (.trying (some webhook)))
      (do
        createWebhookLog data
        pure none : Code Reply (Option String)).run := by
  exact follows_provided trivial (fun _ => rfl) fun _ => rfl

theorem prepare_follows (payload : String) (webhook : Webhook) :
    Follows allowed after (fun ended place => match ended with
      | .ok none => place = .finished acknowledged
      | .ok (some _) => place = .calling retried acknowledged (.trying (some webhook))
      | .error _ => place = .calling retried acknowledged .caught)
      (.calling retried acknowledged (.trying (some webhook)))
      (prepare applyWebhookPayloadTemplate payload webhook).run := by
  refine follows_bindCode.mpr (follows_tryCatch.mpr (follows_bindCode.mpr (follows_askProvider.mpr
    ⟨trivial,fun answer => ?_⟩)))
  rcases answer with message | _
  · exact refuse_follows _
  refine follows_bindCode.mpr (follows_mono ?_ (circuitOpen_follows webhook))
  rintro ended place atPlace
  rcases ended with e | isOpen
  · exact atPlace
  obtain rfl : place = _ := atPlace
  cases isOpen with
  | true => exact refuse_follows _
  | false =>
    show Follows _ _ _ _ (ExceptT.run (match applyWebhookPayloadTemplate payload webhook.payloadTemplate with
      | .error failure => _
      | .ok body => _))
    split
    · exact refuse_follows _
    · rfl

theorem send_follows (webhook : Webhook) (body : String) :
    Follows allowed after (fun ended place => match ended with
      | .ok none => ∃ acknowledged, place = .finished acknowledged
      | .ok (some _) => ∃ acknowledged, place = .calling retried acknowledged .caught
      | .error _ => ∃ acknowledged, place = .calling retried acknowledged .caught)
      (.calling retried acknowledged (.trying (some webhook))) (send webhook body).run := by
  refine follows_provided trivial (fun _ => ⟨_,rfl⟩) fun _ => ?_
  refine follows_bindCode.mpr (follows_askProvider.mpr ⟨trivial,fun answer => ?_⟩)
  rcases answer with e | (response : Response)
  · exact ⟨_,rfl⟩
  show Follows _ _ _ (if response.status = 429 ∨ 500 ≤ response.status then _ else _)
    (ExceptT.run (if response.status = 429 then _ else if 500 ≤ response.status then _ else _))
  by_cases limited : response.status = 429
  · rw [if_pos (.inl limited),if_pos limited]
    exact ⟨_,rfl⟩
  by_cases failed : 500 ≤ response.status
  · rw [if_pos (.inr failed),if_neg limited,if_pos failed]
    exact ⟨_,rfl⟩
  rw [if_neg (not_or.mpr ⟨limited,failed⟩),if_neg limited,if_neg failed]
  refine follows_bindCode.mpr (follows_askProvider.mpr ⟨trivial,fun answer => ?_⟩)
  cases half : webhook.circuitBreaker.any fun breaker => breaker.state = .halfOpen with
  | false =>
    rcases answer with e | _
    · exact ⟨_,rfl⟩
    · exact ⟨_,rfl⟩
  | true =>
    rcases answer with e | _
    · exact ⟨_,rfl⟩
    exact follows_provided trivial (fun _ => ⟨_,rfl⟩) fun _ => ⟨_,rfl⟩

theorem dispatchWith_follows {retry : Option (Code Reply Unit)} (retries : Retries retried retry) (payload : String) :
    Follows allowed after Returned (.calling retried acknowledged (.trying none))
      (dispatchWith applyWebhookPayloadTemplate payload retry).run := by
  refine follows_bindCode.mpr (follows_tryCatch.mpr (follows_map.mpr (follows_askProvider.mpr
    ⟨trivial,fun answer => ?_⟩)))
  rcases answer with message | found
  · exact handleError_follows retries _ _ _
  cases found with
  | none => exact ⟨_,rfl⟩
  | some webhook =>
    refine follows_bindCode.mpr (follows_tryCatch.mpr (follows_map.mpr (follows_mono ?_ (prepare_follows payload webhook))))
    intro ended place atPlace
    rcases ended with message | prepared
    · obtain rfl : place = _ := atPlace
      exact handleError_follows retries _ _ _
    cases prepared with
    | none => exact ⟨_,atPlace⟩
    | some body =>
      obtain rfl : place = _ := atPlace
      refine follows_bindCode.mpr (follows_tryCatch.mpr (follows_mono ?_ (send_follows webhook body)))
      intro ended place atPlace
      rcases ended with message | raised
      · obtain ⟨acknowledged,rfl⟩ := atPlace
        exact handleError_follows retries _ _ _
      cases raised with
      | none => exact atPlace
      | some error =>
        obtain ⟨acknowledged,rfl⟩ := atPlace
        exact handleError_follows retries _ _ _

theorem callback_follows (job : Job) :
    Follows allowed after Returned (.calling false false (.trying none))
      (job.callback applyWebhookPayloadTemplate).run := by
  refine follows_provided trivial (fun _ => ⟨_,_,_,rfl⟩) fun _ => ?_
  have last : Retries true none := rfl
  have first : Retries false (some (dispatchWith applyWebhookPayloadTemplate job.payload none)) :=
    ⟨rfl,fun _ => dispatchWith_follows last _⟩
  exact dispatchWith_follows first _

theorem release_follows (token : Nat) (place : Place) :
    Follows allowed after (fun _ _ => True) place (do let _ ← releaseDeliveryGate token : Code Reply Unit).run := by
  refine follows_bindCode.mpr (follows_tryCatch.mpr (follows_bindCode.mpr (follows_ask.mpr ⟨?_,fun answer => ?_⟩)))
  · cases place <;> trivial
  · rcases answer with e | released
    · trivial
    · trivial

theorem dispatchOnce_follows (job : Job) (descriptor : DeliveryDescriptor) :
    Follows allowed after (fun _ _ => True) .before
      (dispatchOnce descriptor fun _ => job.callback applyWebhookPayloadTemplate).run := by
  refine follows_bindCode.mpr (alreadyDelivered_follows Place.before ⟨trivial,fun _ => rfl⟩ trivial trivial
    fun answer => ?_)
  rcases answer with e | found
  · trivial
  cases found with
  | some attempt => trivial
  | none =>
    refine follows_bindCode.mpr (recordDeliveryAttempt_follows ⟨trivial,fun _ => rfl⟩ ⟨trivial,fun _ => rfl⟩
      (fun _ => ⟨trivial,fun _ => rfl⟩) (fun _ _ => ⟨trivial,fun _ => rfl⟩) (fun _ _ => trivial) (fun _ => trivial)
      (fun id n answer => ?_) _)
    rcases answer with e | attemptId
    · trivial
    refine follows_bindCode.mpr (follows_mono ?_ (callback_follows job))
    intro ended place isOver
    rcases ended with e | _
    · trivial
    obtain ⟨acknowledged,rfl⟩ := isOver
    exact follows_bindCode.mpr (markDeliveryDelivered_follows trivial (fun _ => trivial) (fun _ => trivial)
      (fun _ _ => ⟨trivial,fun _ => rfl⟩) (fun _ => ⟨trivial,fun _ => rfl⟩))

theorem deliver_follows (job : Job) (descriptor : DeliveryDescriptor) (gateTtlMs : Option Nat) :
    Follows allowed after (fun _ _ => True) .before
      (deliverWithIdempotency descriptor (fun _ => job.callback applyWebhookPayloadTemplate) gateTtlMs).run := by
  refine follows_bindCode.mpr (alreadyDelivered_follows Place.before ⟨trivial,fun _ => rfl⟩ trivial trivial
    fun answer => ?_)
  rcases answer with e | found
  · trivial
  cases found with
  | some attempt => trivial
  | none =>
    refine follows_bindCode.mpr (follows_bindCode.mpr (follows_ask.mpr ⟨trivial,fun answer => ?_⟩))
    rcases answer with e | token
    · trivial
    have entered : Follows allowed after (fun _ _ => True) .before
        (withFinally (dispatchOnce descriptor fun _ => job.callback applyWebhookPayloadTemplate)
          (do let _ ← releaseDeliveryGate token)).run := by
      refine follows_withFinally.mpr (follows_mono ?_ (dispatchOnce_follows job descriptor))
      intro ended place _
      refine follows_mono ?_ (release_follows token place)
      intro cleaned last _
      rcases cleaned with e | _
      · trivial
      · trivial
    refine acquireFrom_follows ?_ ?_ ?_ ?_ ?_ _
    · trivial
    · rfl
    · refine follows_bindCode.mpr (alreadyDelivered_follows Place.before ⟨trivial,fun _ => rfl⟩ trivial trivial
        fun answer => ?_)
      rcases answer with e | found
      · trivial
      · trivial
    · exact entered
    · exact fun _ => entered

theorem program_follows (job : Job) :
    Follows allowed after (fun _ _ => True) .before (job.program applyWebhookPayloadTemplate) := by
  refine follows_tryCatch.mpr (follows_map.mpr (follows_mono ?_ (deliver_follows job _ _)))
  intro ended place _
  rcases ended with e | _
  · trivial
  · trivial

end Follow

/-- The endpoint answered with a success status. -/
def acknowledges : Answered (Query Ask) (Value Reply) → Bool
  | ⟨.provider (.fire _ _),.ok response⟩ => Response.success response
  | _ => false

def Place.acknowledged : Place → Bool
  | .before => false
  | .calling _ acknowledged _ => acknowledged
  | .finished acknowledged => acknowledged

/-- The answers that end a callback without a success: the webhook is gone; a refusal, an answer outside 2xx, an open breaker or a
    second rate limit is logged; the circuit is closed after such an answer; or a failure is logged. -/
def endsSilently : Place → (q : Query Ask) → Except String (Value Reply q) → Bool
  | .calling _ false (.trying none), .provider .findWebhook, .ok none => true
  | .calling _ false (.trying (some _)), .provider (.createWebhookLog _), .ok _ => true
  | .calling _ false (.answered false), .provider (.createWebhookLog _), .ok _ => true
  | .calling _ false .closing, .provider (.upsertCircuitBreaker _ _), .ok _ => true
  | .calling _ false .caught, .provider (.createWebhookLog _), .ok _ => true
  | .calling true false .limited, .provider (.createWebhookLog _), .ok _ => true
  | .calling _ false .failing, .provider .findWebhookUser, .ok _ => true
  | _, _, _ => false

theorem stage_finished {retried acknowledged : Bool} {stage : Stage} {a : Ask} {answer : Except String (Reply a)}
    (finished : stage.after retried acknowledged a answer = .finished false) :
    endsSilently (.calling retried acknowledged stage) (.provider a) answer = true := by
  unfold Stage.after at finished
  split at finished
  case h_5 =>
    split at finished
    · cases finished
    · cases finished
  case h_16 =>
    cases retried with
    | true =>
      cases finished
      rfl
    | false => cases finished
  all_goals cases finished <;> rfl

theorem after_finished {p : Place} {q : Query Ask} {answer : Except String (Value Reply q)}
    (finished : after p q answer = .finished false) : p = .finished false ∨ endsSilently p q answer = true := by
  unfold after at finished
  split at finished
  · cases finished
  · exact .inr (stage_finished finished)
  · exact .inl finished

theorem stage_acknowledged {retried acknowledged : Bool} {stage : Stage} {a : Ask} {answer : Except String (Reply a)}
    (ends : (stage.after retried acknowledged a answer).acknowledged = true) :
    acknowledged = true ∨ acknowledges ⟨.provider a,answer⟩ = true := by
  unfold Stage.after at ends
  split at ends
  case h_5 response =>
    have either : (acknowledged || response.success) = true := by split at ends <;> exact ends
    exact (Bool.or_eq_true _ _).mp either
  case h_16 => cases retried <;> exact .inl ends
  all_goals exact .inl ends

theorem after_acknowledged {p : Place} {q : Query Ask} {answer : Except String (Value Reply q)}
    (ends : (after p q answer).acknowledged = true) : p.acknowledged = true ∨ acknowledges ⟨q,answer⟩ = true := by
  unfold after at ends
  split at ends
  · cases ends
  · exact stage_acknowledged ends
  · exact .inl ends

theorem made_acknowledged {α : Type} (made : List (Answered (Query Ask) (Value Reply)))
    (rest : Program (Query Ask) (Value Reply) α)
    (acknowledged : ((Thread.mk made rest).place after .before).acknowledged = true) : made.any acknowledges = true := by
  induction made using List.reverseRecOn with
  | nil => cases acknowledged
  | append_singleton earlier last ih =>
    obtain ⟨q,answer⟩ := last
    rw [Thread.place_append after .before earlier q answer rest] at acknowledged
    rcases after_acknowledged acknowledged with before | now
    · simp [ih before]
    · simp [now]

section Runs
variable {Env : Type} (provide : Env → (a : Ask) → Except String (Reply a) × Env)
  (applyWebhookPayloadTemplate : String → Option String → Except PayloadTemplateFailure String)

abbrev System (Env : Type) := Interleaving.System (World Env) (Query Ask) (Value Reply) (Except String Unit)

/-- The jobs of a payment run at once for one of its webhooks. -/
def step : System Env → Input Job Nat → Option (Answered (Query Ask) (Value Reply)) × System Env :=
  Interleaving.step (exec provide) (Job.program applyWebhookPayloadTemplate) elapse

/-- The step does not end a callback without a success. -/
def meets (s : System Env) : Input Job Nat → Bool
  | .proceed c outcome =>
    match s.threads c with
    | some ⟨made,.call q next⟩ =>
      !endsSilently ((Thread.mk made (.call q next)).place after .before) q (respond (exec provide) s.world q outcome).1
    | _ => true
  | _ => true

def BecomesDelivered (w w' : World Env) : Prop :=
  (∃ d', w'.notificationDelivery = some d' ∧ d'.status = .delivered ∧
    ∀ d, w.notificationDelivery = some d → d.status ≠ .delivered) ∨
  ∃ row' ∈ w'.notificationDeliveryAttempt, row'.status = .delivered ∧
    ∀ row ∈ w.notificationDeliveryAttempt, row.id = row'.id → row.status ≠ .delivered

variable {w : World Env}

theorem becomesDelivered_same {w' : World Env} (deliveries : w'.notificationDelivery = w.notificationDelivery)
    (attempts : w'.notificationDeliveryAttempt = w.notificationDeliveryAttempt) : ¬ BecomesDelivered w w' := by
  rintro (⟨d,found,delivered,before⟩ | ⟨row,listed,delivered,before⟩)
  · exact before d (by rw [← deliveries]; exact found) delivered
  · exact before row (by rw [← attempts]; exact listed) rfl delivered

theorem becomesDelivered_open {w' : World Env} (deliveries : ∀ d, w'.notificationDelivery = some d → d.status ≠ .delivered)
    (attempts : w'.notificationDeliveryAttempt = w.notificationDeliveryAttempt) : ¬ BecomesDelivered w w' := by
  rintro (⟨d,found,delivered,_⟩ | ⟨row,listed,delivered,before⟩)
  · exact deliveries d found delivered
  · exact before row (by rw [← attempts]; exact listed) rfl delivered

theorem update_inProgress {n : Nat} {d : NotificationDelivery}
    (found : (w.update (.inProgress n)).notificationDelivery = some d) : d.status ≠ .delivered := by
  obtain ⟨_,_,rfl⟩ := Option.map_eq_some_iff.mp found
  exact nofun

theorem exec_becomesDelivered {p : Place} {q : Query Ask} (allows : allowed p q)
    (becomes : BecomesDelivered w (exec provide w q).2) : ∃ acknowledged, p = .finished acknowledged := by
  cases p with
  | finished acknowledged => exact ⟨acknowledged,rfl⟩
  | calling retried acknowledged stage =>
    exfalso
    cases q with
    | evalReleaseGate token =>
      obtain ⟨gate,same⟩ := exec_evalReleaseGate provide w token
      rw [same] at becomes
      exact becomesDelivered_same rfl rfl becomes
    | provider a => exact becomesDelivered_same rfl rfl becomes
    | _ => cases allows
  | before =>
    exfalso
    cases q with
    | upsertDelivery n =>
      revert becomes
      simp only [exec]
      split
      · exact becomesDelivered_open (fun d found => update_inProgress found) rfl
      · refine becomesDelivered_open ?_ rfl
        rintro d ⟨⟩ delivered
        cases delivered
    | updateDelivery id data =>
      cases data with
      | inProgress n =>
        revert becomes
        simp only [exec]
        split
        · exact becomesDelivered_open (fun d found => update_inProgress found) rfl
        · exact becomesDelivered_same rfl rfl
      | _ => cases allows
    | createAttempt deliveryId n =>
      revert becomes
      simp only [exec]
      split
      · exact becomesDelivered_same rfl rfl
      · rintro (⟨d,found,delivered,before⟩ | ⟨row,listed,delivered,before⟩)
        · exact before d found delivered
        · rcases List.mem_append.mp listed with old | new
          · exact before row old rfl delivered
          · rw [List.mem_singleton.mp new] at delivered
            cases delivered
    | setGate token ttlMs =>
      obtain ⟨gate,same⟩ := exec_setGate provide w token ttlMs
      rw [same] at becomes
      exact becomesDelivered_same rfl rfl becomes
    | evalReleaseGate token =>
      obtain ⟨gate,same⟩ := exec_evalReleaseGate provide w token
      rw [same] at becomes
      exact becomesDelivered_same rfl rfl becomes
    | findDelivery | findDeliveredAttempt | countAttempts | randomUUID => exact becomesDelivered_same rfl rfl becomes
    | updateAttempt _ _ | updateManyDelivery _ | provider _ => cases allows

/-- No callback has returned without a success. -/
def Loud (s : System Env) : Prop :=
  Placed allowed after (fun _ _ => True) .before s ∧ ∀ c, s.places after .before c ≠ some (.finished false)

theorem loud_step {s : System Env} {i : Input Job Nat} (met : meets provide s i = true) (loud : Loud s) :
    Loud (step provide applyWebhookPayloadTemplate s i).2 := by
  obtain ⟨placed,unfinished⟩ := loud
  refine ⟨placed_step (fun job => program_follows job) placed i,?_⟩
  have others : ∀ {c : Nat} {place : Option Place}, place ≠ some (.finished false) →
      ∀ d, Function.update (s.places after .before) c place d ≠ some (.finished false) := by
    intro c place own
    rw [Function.forall_update_iff (s.places after .before) fun _ place => place ≠ some (.finished false)]
    exact ⟨own,fun d _ => unfinished d⟩
  unfold step
  rcases placed_cases placed i with same | ⟨c,job,rfl,_,_,_,moved⟩ |
    ⟨c,outcome,p,q,rfl,standing,there,_,_,_,moved⟩ | ⟨c,rfl,_,_,moved⟩ | ⟨ms,rfl,_,_,moved⟩
  · rw [same]
    exact unfinished
  · rw [moved]
    exact others fun finished => by cases finished
  · rw [moved]
    refine others fun finished => ?_
    rcases after_finished (Option.some.inj finished) with before | silent
    · exact unfinished c (by rw [there,before])
    · obtain ⟨made,next,running⟩ := standing
      rw [System.places,running,Option.map_some] at there
      simp [meets,running,Option.some.inj there,silent] at met
  · rw [moved]
    exact others fun finished => by cases finished
  · rw [moved]
    exact unfinished

theorem step_acknowledged {s : System Env} {i : Input Job Nat} (loud : Loud s)
    (becomes : BecomesDelivered s.world (step provide applyWebhookPayloadTemplate s i).2.world) :
    ∃ c outcome thread, i = .proceed c outcome ∧ s.threads c = some thread ∧ thread.made.any acknowledges = true := by
  obtain ⟨placed,unfinished⟩ := loud
  unfold step at becomes
  rcases step_cases (exec provide) (Job.program applyWebhookPayloadTemplate) elapse s i with
    same | ⟨c,job,rfl,_,moved⟩ | ⟨c,outcome,made,q,next,rfl,standing,moved⟩ | ⟨c,rfl,moved⟩ | ⟨ms,rfl,moved⟩
  · rw [same] at becomes
    exact absurd becomes (becomesDelivered_same rfl rfl)
  · rw [moved] at becomes
    exact absurd becomes (becomesDelivered_same rfl rfl)
  · rw [moved] at becomes
    have carriedOut : BecomesDelivered s.world (exec provide s.world q).2 := by
      cases outcome with
      | failed message => exact absurd becomes (becomesDelivered_same rfl rfl)
      | ok => exact becomes
      | lost message => exact becomes
    obtain ⟨acknowledged,there⟩ := exec_becomesDelivered provide (placed c _ standing).1 carriedOut
    refine ⟨c,outcome,_,rfl,standing,made_acknowledged made (.call q next) ?_⟩
    rw [there]
    cases acknowledged with
    | true => rfl
    | false => exact absurd (by rw [System.places,standing,Option.map_some,there]) (unfinished c)
  · rw [moved] at becomes
    exact absurd becomes (becomesDelivered_same rfl rfl)
  · rw [moved] at becomes
    exact absurd becomes (becomesDelivered_same rfl rfl)

/-- In a run no callback of which ends without a success, the record of the delivery
    becomes delivered only in a call whose request the endpoint acknowledged. -/
theorem delivered_acknowledged (w : World Env) (inputs : List (Input Job Nat))
    (met : ∀ t ∈ history (step provide applyWebhookPayloadTemplate) (System.start w) inputs,
      meets provide t.before t.input = true) :
    ∀ t ∈ history (step provide applyWebhookPayloadTemplate) (System.start w) inputs,
      BecomesDelivered t.before.world t.after.world →
      ∃ c outcome thread, t.input = .proceed c outcome ∧ t.before.threads c = some thread ∧
        thread.made.any acknowledges = true := by
  have loud := history_inv (fun s i holds loud => loud_step provide applyWebhookPayloadTemplate holds loud) met
    ⟨placed_start w,nofun⟩
  intro t member becomes
  obtain ⟨earlier,i,rfl⟩ := mem_history member
  exact step_acknowledged provide applyWebhookPayloadTemplate (loud _ member).1 becomes

end Runs

/-- A webhook whose endpoint answers every request with one status. -/
def provideStatus (status : Nat) (env : Unit) : (a : Ask) → Except String (Reply a) × Unit
  | .acquireProviderBudget => (.ok true,env)
  | .findWebhook => (.ok (some ⟨"https://example.com/hook",none,none⟩),env)
  | .validateUrlForSsrf _ => (.ok (),env)
  | .dateNow => (.ok (0 : Nat),env)
  | .createWebhookLog _ => (.ok (),env)
  | .upsertCircuitBreaker _ _ => (.ok (),env)
  | .buildDualSignatureHeaders _ => (.ok (),env)
  | .fire _ _ => (.ok ⟨status,""⟩,env)
  | .recordRateLimit _ => (.ok (60000 : Nat),env)
  | .breakerStats => (.error "breaker.stats is not a function",env)
  | .findWebhookUser => (.ok (some "u1"),env)

def freshWorld : World Unit := ⟨0,none,[],none,0,()⟩
def plainTemplate (payload : String) (_ : Option String) : Except PayloadTemplateFailure String := .ok payload
def oneJob : List (Input Job Nat) := .start 0 ⟨"p1",none,"w1","payload"⟩ :: List.replicate 16 (.proceed 0 .ok)

theorem success_delivered :
    (∀ t ∈ history (step (provideStatus 200) plainTemplate) (System.start freshWorld) (oneJob ++ [.proceed 0 .ok]),
      BecomesDelivered t.before.world t.after.world →
      ∃ c outcome thread, t.input = .proceed c outcome ∧ t.before.threads c = some thread ∧
        thread.made.any acknowledges = true) ∧
      (run (step (provideStatus 200) plainTemplate) (System.start freshWorld)
        (oneJob ++ [.proceed 0 .ok])).world.notificationDeliveryAttempt.map (·.status) = [.delivered] :=
  ⟨delivered_acknowledged (provideStatus 200) plainTemplate freshWorld _ (List.all_eq_true.mp (by decide)),by decide⟩

/-- The endpoint answers 404 and the delivery is recorded as delivered. -/
theorem not_found_delivered :
    ¬ ∀ inputs, ∀ t ∈ history (step (provideStatus 404) plainTemplate) (System.start freshWorld) inputs,
      BecomesDelivered t.before.world t.after.world →
      ∃ c outcome thread, t.input = .proceed c outcome ∧ t.before.threads c = some thread ∧
        thread.made.any acknowledges = true := by
  intro always
  obtain ⟨c,outcome,thread,isProceed,running,acknowledged⟩ := always (oneJob ++ [.proceed 0 .ok])
    (transition (step (provideStatus 404) plainTemplate)
      (run (step (provideStatus 404) plainTemplate) (System.start freshWorld) oneJob) (.proceed 0 .ok))
    (by rw [history_append]; exact List.mem_append_right _ (List.mem_cons_self ..))
    (.inr ⟨⟨2,some 1,none,.delivered,1,none⟩,by decide,rfl,by decide⟩)
  cases isProceed
  have unanswered : (((run (step (provideStatus 404) plainTemplate) (System.start freshWorld) oneJob).threads 0).any
    fun t => t.made.any acknowledges) = false := by decide
  have running : (run (step (provideStatus 404) plainTemplate) (System.start freshWorld) oneJob).threads 0 =
    some thread := running
  rw [running,Option.any_some,acknowledged] at unanswered
  cases unanswered

end StellarAlerts.WebhookDispatch
