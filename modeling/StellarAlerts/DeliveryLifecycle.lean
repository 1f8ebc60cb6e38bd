import StellarAlerts.Delivery

/-!
The life of a delivery under its four writers. Every change is an edge of the table, and
no terminal status is left, exactly in the runs whose writes find the row in a status
that admits them (`lifecycle_iff`).
-/
namespace StellarAlerts.DeliveryLifecycle
open Histories Interleaving RemoteCalls Delivery

variable {Provider Env : Type} {Reply : Provider → Type}

inductive Writer where
  | recordDeliveryAttempt (input : AttemptInput)
  | markDeliveryDelivered (attemptId : Nat) (providerRequestId : Option String)
  | markDeliveryFailed (attemptId : Nat) (error : String)
  | markDeliverySuppressed (reason : Option String)

def Writer.program : Writer → Program (Query Provider) (Value Reply) (Except String Unit)
  | .recordDeliveryAttempt input => (discard (Delivery.recordDeliveryAttempt input) : Code Reply Unit).run
  | .markDeliveryDelivered attemptId providerRequestId =>
    (Delivery.markDeliveryDelivered attemptId providerRequestId : Code Reply Unit).run
  | .markDeliveryFailed attemptId error => (Delivery.markDeliveryFailed attemptId error : Code Reply Unit).run
  | .markDeliverySuppressed reason => (Delivery.markDeliverySuppressed reason : Code Reply Unit).run

abbrev System (Env : Type) (Reply : Provider → Type) :=
  Interleaving.System (World Env) (Query Provider) (Value Reply) (Except String Unit)

/-- The writers interleave at every query; time passes in between. -/
def step (provide : Env → (p : Provider) → Except String (Reply p) × Env) :
    System Env Reply → Input Writer Nat → Option (Answered (Query Provider) (Value Reply)) × System Env Reply :=
  Interleaving.step (exec provide) Writer.program elapse

def writes (d : NotificationDelivery) : Query Provider → Option DeliveryUpdate
  | .upsertDelivery nextAttempt => some (.inProgress nextAttempt)
  | .updateDelivery id data => if d.id = id then some data else none
  | .updateManyDelivery data => some data
  | _ => none

/-- The statuses that admit a write: an attempt begins on a delivery that is not terminal, its success is told of a delivery in
    progress, its failure of one in progress or failed, and only an open delivery is suppressed. A write may also repeat the status that
    it finds. -/
def admits : DeliveryUpdate → DeliveryStatus → Bool
  | .inProgress _, status => !isTerminalDeliveryStatus status
  | .delivered, status => status = .in_progress || status = .delivered
  | .failed false _, status => status = .in_progress || status = .failed
  | .failed true _, status => status = .in_progress || status = .failed || status = .exhausted
  | .suppressed _, status => status = .suppressed || !isTerminalDeliveryStatus status

theorem admits_iff (data : DeliveryUpdate) (status : DeliveryStatus) :
    admits data status = true ↔ (data.status ≠ status → data.status ∈ VALID_LIFECYCLE_TRANSITIONS status) := by
  cases data with
  | inProgress nextAttempt => cases status <;> simp [admits,DeliveryUpdate.status,VALID_LIFECYCLE_TRANSITIONS] <;> decide
  | delivered => cases status <;> simp [admits,DeliveryUpdate.status,VALID_LIFECYCLE_TRANSITIONS]
  | failed isExhausted error =>
    cases isExhausted <;> cases status <;> simp [admits,DeliveryUpdate.status,VALID_LIFECYCLE_TRANSITIONS]
  | suppressed reason => cases status <;> simp [admits,DeliveryUpdate.status,VALID_LIFECYCLE_TRANSITIONS] <;> decide

@[simp] theorem apply_status (data : DeliveryUpdate) (now : Nat) (d : NotificationDelivery) :
    (data.apply now d).status = data.status := by
  cases data <;> rfl

section Steps
variable (provide : Env → (p : Provider) → Except String (Reply p) × Env)

variable {d : NotificationDelivery}

theorem exec_delivery {w : World Env} (found : w.notificationDelivery = some d) (q : Query Provider) :
    (exec provide w q).2.notificationDelivery = some ((writes d q).elim d fun data => data.apply w.now d) := by
  cases q with
  | upsertDelivery nextAttempt => simp [exec,writes,World.update,found]
  | updateDelivery id data =>
    by_cases own : d.id = id <;> simp [exec,writes,World.update,found,own]
  | updateManyDelivery data => simp [exec,writes,World.update,found]
  | createAttempt deliveryId attempt =>
    simp only [exec,writes,Option.elim_none]
    split <;> exact found
  | updateAttempt attemptId data =>
    simp only [exec,writes,Option.elim_none]
    split <;> exact found
  | setGate token ttlMs =>
    obtain ⟨gate,same⟩ := exec_setGate provide w token ttlMs
    rw [same]
    exact found
  | evalReleaseGate token =>
    obtain ⟨gate,same⟩ := exec_evalReleaseGate provide w token
    rw [same]
    exact found
  | findDelivery | findDeliveredAttempt | countAttempts | randomUUID | provider _ => exact found

/-- What a step changes of the delivery's status is an edge of the table. -/
def EdgeTaken (w w' : World Env) : Prop :=
  ∀ d d', w.notificationDelivery = some d → w'.notificationDelivery = some d' → d'.status ≠ d.status →
    d'.status ∈ VALID_LIFECYCLE_TRANSITIONS d.status

/-- The write that a query makes finds a status that admits it. -/
def QueryAdmitted (w : World Env) (q : Query Provider) : Prop :=
  ∀ d data, w.notificationDelivery = some d → writes d q = some data → admits data d.status = true

/-- The write that is applied in a step, if any, finds a status that admits it. -/
def Admitted (s : System Env Reply) : Input Writer Nat → Prop
  | .proceed c outcome => outcome.applied = true → ∀ q, s.At c q → QueryAdmitted s.world q
  | _ => True

theorem edgeTaken_same (w : World Env) : EdgeTaken w w := by
  intro d d' found found' changed
  rw [found] at found'
  cases found'
  exact absurd rfl changed

theorem exec_edgeTaken_iff (w : World Env) (q : Query Provider) :
    EdgeTaken w (exec provide w q).2 ↔ QueryAdmitted w q := by
  constructor
  · intro edge d data found written
    rw [admits_iff]
    have left := exec_delivery provide found q
    rw [written] at left
    simpa using edge d _ found left
  · intro admitted d d' found found' changed
    have left := exec_delivery provide found q
    rw [left] at found'
    cases written : writes d q with
    | none =>
      rw [written] at found'
      cases found'
      exact absurd rfl changed
    | some data =>
      rw [written] at found'
      cases found'
      simpa using (admits_iff data d.status).mp (admitted d data found written) (by simpa using changed)

theorem step_edgeTaken_iff (s : System Env Reply) (i : Input Writer Nat) :
    EdgeTaken s.world (step provide s i).2.world ↔ Admitted s i := by
  cases i with
  | start c task =>
    refine iff_of_true ?_ trivial
    simp only [step,Interleaving.step]
    split <;> exact edgeTaken_same _
  | exit c => exact iff_of_true (edgeTaken_same _) trivial
  | outside ms =>
    refine iff_of_true ?_ trivial
    exact edgeTaken_same s.world
  | proceed c outcome =>
    simp only [step,Interleaving.step,Admitted]
    split
    · rename_i made q next standing
      have onlyCall : ∀ q', s.At c q' ↔ q' = q := by
        intro q'
        constructor
        · rintro ⟨made',next',standing'⟩
          rw [standing] at standing'
          cases standing'
          rfl
        · rintro rfl
          exact ⟨made,next,standing⟩
      simp only [onlyCall,forall_eq]
      cases outcome with
      | failed message => simpa [respond,Outcome.applied] using edgeTaken_same s.world
      | ok => simpa [respond,Outcome.applied] using exec_edgeTaken_iff provide s.world q
      | lost message => simpa [respond,Outcome.applied] using exec_edgeTaken_iff provide s.world q
    · rename_i idle
      refine iff_of_true (edgeTaken_same _) ?_
      rintro _ q ⟨made,next,standing⟩
      exact absurd standing (idle made q next)

theorem step_delivery_stays {s : System Env Reply} (found : s.world.notificationDelivery = some d) (i : Input Writer Nat) :
    ∃ d', (step provide s i).2.world.notificationDelivery = some d' := by
  have calls : ∀ (w : World Env) (q : Query Provider), (∃ d, w.notificationDelivery = some d) →
      ∃ d, (exec provide w q).2.notificationDelivery = some d := by
    rintro w q ⟨d,found⟩
    exact ⟨_,exec_delivery provide found q⟩
  exact @step_world _ _ _ _ _ _ (exec provide) Writer.program elapse (fun w => ∃ d, w.notificationDelivery = some d) calls
    (fun _ _ found => found) s ⟨d,found⟩ i

theorem terminal_no_edges {status : DeliveryStatus} (terminal : isTerminalDeliveryStatus status = true) :
    VALID_LIFECYCLE_TRANSITIONS status = [] := by
  cases status <;> first | rfl | cases terminal

theorem terminal_stays {s : System Env Reply} {inputs : List (Input Writer Nat)}
    (edges : ∀ t ∈ history (step provide) s inputs, EdgeTaken t.before.world t.after.world)
    (found : s.world.notificationDelivery = some d) (terminal : isTerminalDeliveryStatus d.status = true) :
    ∃ d', (run (step provide) s inputs).world.notificationDelivery = some d' ∧ d'.status = d.status := by
  induction inputs generalizing s d with
  | nil => exact ⟨d,found,rfl⟩
  | cons i rest ih =>
    obtain ⟨d',found'⟩ := step_delivery_stays provide found i
    have edge : EdgeTaken s.world (step provide s i).2.world := edges (transition (step provide) s i) (List.mem_cons_self ..)
    have unchanged : d'.status = d.status := by
      by_contra changed
      have listed := edge d d' found found' changed
      rw [terminal_no_edges terminal] at listed
      cases listed
    obtain ⟨last,atEnd,same⟩ :=
      ih (fun t member => edges t (List.mem_cons_of_mem _ member)) found' (by rw [unchanged]; exact terminal)
    exact ⟨last,atEnd,same.trans unchanged⟩

/-- Every change of the status in a run is an edge and no terminal status is left,
    if and only if every write that is applied finds a status that admits it. -/
theorem lifecycle_iff (w : World Env) (inputs : List (Input Writer Nat)) :
    ((∀ t ∈ history (step provide) (System.start w) inputs, EdgeTaken t.before.world t.after.world) ∧
      ∀ first second, inputs = first ++ second → ∀ d,
        (run (step provide) (System.start w) first).world.notificationDelivery = some d →
        isTerminalDeliveryStatus d.status = true →
        ∃ d', (run (step provide) (System.start w) inputs).world.notificationDelivery = some d' ∧
          d'.status = d.status) ↔
      ∀ t ∈ history (step provide) (System.start w) inputs, Admitted t.before t.input := by
  have stepwise : ∀ t ∈ history (step provide) (System.start w) inputs,
      (EdgeTaken t.before.world t.after.world ↔ Admitted t.before t.input) := by
    intro t member
    obtain ⟨before,i,rfl⟩ := mem_history member
    exact step_edgeTaken_iff provide _ i
  constructor
  · rintro ⟨edges,_⟩ t member
    exact (stepwise t member).mp (edges t member)
  · intro admitted
    have edges : ∀ t ∈ history (step provide) (System.start w) inputs, EdgeTaken t.before.world t.after.world :=
      fun t member => (stepwise t member).mpr (admitted t member)
    refine ⟨edges,?_⟩
    rintro first second rfl d found terminal
    rw [run_append]
    refine terminal_stays provide (fun t member => edges t ?_) found terminal
    rw [history_append]
    exact List.mem_append_right _ member

end Steps

/-- A callback that calls nothing. -/
def provideNothing (_ : Unit) (p : Empty) : Except String Unit × Unit := nomatch p

def freshWorld : World Unit := ⟨0,none,[],none,0,()⟩

/-- An attempt is recorded and its delivery suppressed; the provider's acknowledgement comes in after that. -/
def lateAcknowledgement : List (Input Writer Nat) :=
  [.start 0 (.recordDeliveryAttempt ⟨some "p1",some "w1",none⟩),.proceed 0 .ok,.proceed 0 .ok,.proceed 0 .ok,
   .proceed 0 .ok,.start 1 (.markDeliverySuppressed none),.proceed 1 .ok,
   .start 2 (.markDeliveryDelivered 1 none),.proceed 2 .ok]

/-- A suppressed delivery becomes delivered. -/
theorem suppressed_then_delivered :
    ¬ ∀ t ∈ history (step provideNothing) (System.start freshWorld) (lateAcknowledgement ++ [.proceed 2 .ok]),
      EdgeTaken t.before.world t.after.world := by
  intro edges
  have edge := edges (transition (step provideNothing)
    (run (step provideNothing) (System.start freshWorld) lateAcknowledgement) (.proceed 2 .ok))
    (by rw [history_append]; exact List.mem_append_right _ (List.mem_cons_self ..))
  have listed := edge ⟨0,.suppressed,1,5,some "Delivery suppressed",none,some 0⟩ ⟨0,.delivered,1,5,none,some 0,some 0⟩
    rfl rfl (by decide)
  cases listed

end StellarAlerts.DeliveryLifecycle
