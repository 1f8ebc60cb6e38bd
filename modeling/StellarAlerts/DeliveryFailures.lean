import StellarAlerts.Delivery

/-!
What is left behind a dispatch that throws. The failure is accounted for exactly where
the callback has done so itself (`throw_accounted_iff`), and after a callback that
leaves the delivery's rows alone the attempt stays pending.
-/
namespace StellarAlerts.DeliveryFailures
open Delivery Interleaving RemoteCalls

variable {Provider Env : Type} {Reply : Provider → Type} (provide : Env → (p : Provider) → Except String (Reply p) × Env)

/-- A failed attempt as it should be left: its row failed, and the delivery exhausted if this was the last attempt that it
    may have, otherwise failed. -/
structure Accounted (w : World Env) (attemptId : Nat) : Prop where
  attempt : ∀ row ∈ w.notificationDeliveryAttempt, row.id = attemptId → row.status = .failed
  parent : ∀ row ∈ w.notificationDeliveryAttempt, row.id = attemptId → ∃ d, w.notificationDelivery = some d ∧
    d.status = if d.maxAttempts ≤ row.attempt then .exhausted else .failed

/-- The call passes the gate and opens an attempt; each query may be refused or lose its answer. -/
def Opens (w : World Env) (descriptor : DeliveryDescriptor) (gateTtlMs : Option Nat) (token attemptId : Nat) (opened : World Env) :
    Prop :=
  ∃ looked gated checked,
    Finishes (exec provide) w (alreadyDelivered : Code Reply Bool).run looked (.ok false) ∧
    Finishes (exec provide) looked (acquireDeliveryGate (gateTtlMs.getD DEFAULT_GATE_TTL_MS) : Code Reply (Option Nat)).run gated
      (.ok (some token)) ∧
    Finishes (exec provide) gated (alreadyDelivered : Code Reply Bool).run checked (.ok false) ∧
    Finishes (exec provide) checked
      (recordDeliveryAttempt ⟨some descriptor.paymentId,some descriptor.destination,none⟩ : Code Reply Nat).run opened
      (.ok attemptId)

/-- The call opens an attempt, its callback throws and leaves a state, and the gate is released. -/
def Throws (w : World Env) (descriptor : DeliveryDescriptor) (dispatch : Nat → Code Reply Unit) (gateTtlMs : Option Nat)
    (attemptId : Nat) (thrown : World Env) (e : String) (left : World Env) : Prop :=
  ∃ token opened, Opens provide w descriptor gateTtlMs token attemptId opened ∧
    Finishes (exec provide) opened (dispatch attemptId).run thrown (.error e) ∧
    ∃ released, Finishes (exec provide) thrown (releaseDeliveryGate token : Code Reply Bool).run left released

/-- A callback that asks its providers and nothing of the delivery's rows. -/
def LeavesRows (dispatch : Nat → Code Reply Unit) : Prop :=
  ∀ attemptId, Follows (fun (_ : Unit) (q : Query Provider) => ∃ p, q = .provider p) (fun _ _ _ => ()) (fun _ _ => True) ()
    (dispatch attemptId).run

section
variable {provide}

def SameRows (w w' : World Env) : Prop :=
  w'.notificationDelivery = w.notificationDelivery ∧ w'.notificationDeliveryAttempt = w.notificationDeliveryAttempt

variable {w w' : World Env}

theorem accounted_same (same : SameRows w w') (attemptId : Nat) : Accounted w' attemptId ↔ Accounted w attemptId := by
  obtain ⟨delivery,attempts⟩ := same
  constructor
  · rintro ⟨attempt,parent⟩
    exact ⟨attempts ▸ attempt,delivery ▸ attempts ▸ parent⟩
  · rintro ⟨attempt,parent⟩
    exact ⟨attempts.symm ▸ attempt,delivery.symm ▸ attempts.symm ▸ parent⟩

theorem respond_sameRows {q : Query Provider} (leaves : ∀ w, SameRows w (exec provide w q).2) (outcome : Outcome) :
    SameRows w (respond (exec provide) w q outcome).2 := by
  cases outcome with
  | ok => exact leaves w
  | failed _ => exact ⟨rfl,rfl⟩
  | lost _ => exact leaves w

theorem SameRows.trans {a b c : World Env} (first : SameRows a b) (second : SameRows b c) : SameRows a c :=
  ⟨second.1.trans first.1,second.2.trans first.2⟩

theorem release_sameRows {token : Nat} {released : Except String Bool}
    (finishes : Finishes (exec provide) w (releaseDeliveryGate token : Code Reply Bool).run w' released) :
    (∃ answer, released = .ok answer) ∧ SameRows w w' := by
  have follows : Follows (fun (_ : Unit) (q : Query Provider) => ∃ token, q = .evalReleaseGate token) (fun _ _ _ => ())
      (fun ended _ => ∃ answer, ended = .ok answer) () (releaseDeliveryGate token : Code Reply Bool).run := by
    refine follows_tryCatch.mpr (follows_bindCode.mpr ⟨⟨token,rfl⟩,fun answer => ?_⟩)
    cases answer with
    | ok result => exact ⟨_,rfl⟩
    | error e => exact ⟨false,rfl⟩
  obtain ⟨_,ended⟩ := finishes_ends follows finishes
  refine ⟨ended,finishes_keeps (I := SameRows w) ?_ follows finishes ⟨rfl,rfl⟩⟩
  rintro _ _ there outcome ⟨token,rfl⟩ same
  refine same.trans (respond_sameRows (fun v => ?_) outcome)
  obtain ⟨gate,is⟩ := exec_evalReleaseGate provide v token
  rw [is]
  exact ⟨rfl,rfl⟩

variable {attemptId : Nat}

theorem callback_sameRows {dispatch : Nat → Code Reply Unit} (leaves : LeavesRows dispatch) {ended : Except String Unit}
    (finishes : Finishes (exec provide) w (dispatch attemptId).run w' ended) : SameRows w w' := by
  refine finishes_keeps (I := SameRows w) ?_ (leaves attemptId) finishes ⟨rfl,rfl⟩
  rintro _ _ there outcome ⟨p,rfl⟩ same
  exact same.trans (respond_sameRows (fun v => ⟨rfl,rfl⟩) outcome)

variable {descriptor : DeliveryDescriptor} {gateTtlMs : Option Nat}

theorem opened_pending {opened : World Env} {token : Nat}
    (opens : Opens provide w descriptor gateTtlMs token attemptId opened) :
    ∃ row ∈ opened.notificationDeliveryAttempt, row.id = attemptId ∧ row.status = .pending := by
  obtain ⟨_,_,checked,_,_,_,record⟩ := opens
  obtain ⟨_,found,_,rest⟩ := finishes_bindCode.mp record
  cases found with
  | error e => cases rest.2
  | ok found =>
    obtain ⟨_,prior,_,rest⟩ := finishes_bindCode.mp rest
    cases prior with
    | error e => cases rest.2
    | ok prior =>
      obtain ⟨there,deliveryId,_,rest⟩ := finishes_bindCode.mp rest
      cases deliveryId with
      | error e => cases rest.2
      | ok deliveryId =>
        obtain ⟨outcome,created⟩ := finishes_call.mp rest
        obtain ⟨rfl,answer⟩ := finishes_returned.mp created
        cases outcome with
        | failed message => cases answer
        | lost message => cases answer
        | ok =>
          revert answer
          simp only [respond,exec]
          split
          · intro answer
            cases answer
          · intro answer
            rw [Except.ok.inj answer]
            exact ⟨_,List.mem_append_right _ (List.mem_singleton_self _),rfl,rfl⟩

theorem throws_finishes {thrown left : World Env} {dispatch : Nat → Code Reply Unit} {e : String}
    (throws : Throws provide w descriptor dispatch gateTtlMs attemptId thrown e left) :
    Finishes (exec provide) w (deliverWithIdempotency descriptor dispatch gateTtlMs).run left (.error e) := by
  obtain ⟨token,opened,⟨looked,gated,checked,first,gate,second,record⟩,threw,released,release⟩ := throws
  obtain ⟨⟨answer,rfl⟩,_⟩ := release_sameRows release
  refine finishes_bindCode.mpr ⟨looked,.ok false,first,?_⟩
  refine finishes_bindCode.mpr ⟨gated,.ok (some token),gate,?_⟩
  refine finishes_withFinally.mpr ⟨thrown,.error e,.ok (),?_,?_,rfl⟩
  · refine finishes_bindCode.mpr ⟨checked,.ok false,second,?_⟩
    refine finishes_bindCode.mpr ⟨opened,.ok attemptId,record,?_⟩
    exact finishes_bindCode.mpr ⟨thrown,.error e,threw,rfl,rfl⟩
  · exact finishes_bindCode.mpr ⟨left,.ok answer,release,finishes_returned.mpr ⟨rfl,rfl⟩⟩

/-- A call whose callback throws ends with its error, and its failure is accounted for if and only if the callback left it
    so; after a callback that leaves the rows alone it never is. -/
theorem throw_accounted_iff (provide : Env → (p : Provider) → Except String (Reply p) × Env) (w thrown left : World Env)
    (descriptor : DeliveryDescriptor) (dispatch : Nat → Code Reply Unit) (gateTtlMs : Option Nat) (attemptId : Nat) (e : String)
    (throws : Throws provide w descriptor dispatch gateTtlMs attemptId thrown e left) :
    Finishes (exec provide) w (deliverWithIdempotency descriptor dispatch gateTtlMs).run left (.error e) ∧
      (Accounted left attemptId ↔ Accounted thrown attemptId) ∧ (LeavesRows dispatch → ¬Accounted left attemptId) := by
  have finishes := throws_finishes throws
  obtain ⟨token,opened,opens,threw,_,release⟩ := throws
  have kept := accounted_same (release_sameRows release).2 attemptId
  refine ⟨finishes,kept,fun leaves accounted => ?_⟩
  obtain ⟨row,listed,own,pending⟩ := opened_pending opens
  have before := (accounted_same (callback_sameRows leaves threw) attemptId).mp (kept.mp accounted)
  rw [before.attempt row listed own] at pending
  cases pending

end

/-- A provider that answers with an error. -/
def refuse (_ : Unit) (_ : Unit) : Except String Unit × Unit := (.error "provider 500",())

def freshWorld : World Unit := ⟨0,none,[],none,0,()⟩
def telegramAlert : DeliveryDescriptor := ⟨"pay-1","telegram","chat-1",none⟩
def callProvider (_ : Nat) : Code (fun _ : Unit => Unit) Unit := ask (.provider ())

/-- The attempt of a call whose provider refuses, the gate's token before it. -/
def openedWorld : World Unit := ⟨0,some ⟨1,.in_progress,1,5,none,none,none⟩,[⟨2,some 1,none,.pending,1,none⟩],some ⟨0,30000⟩,3,()⟩

def leftWorld : World Unit := { openedWorld with gate := none }

theorem alert_throws : Throws refuse freshWorld telegramAlert callProvider none 2 openedWorld "provider 500" leftWorld :=
  ⟨0,openedWorld,
    ⟨freshWorld,{ freshWorld with gate := some ⟨0,30000⟩, nextId := 1 },{ freshWorld with gate := some ⟨0,30000⟩, nextId := 1 },
      finishes_solo freshWorld _,finishes_solo freshWorld _,finishes_solo _ _,finishes_solo _ _⟩,
    finishes_solo openedWorld _,.ok true,finishes_solo openedWorld _⟩

theorem throw_accounted_alert : (Accounted leftWorld 2 ↔ Accounted openedWorld 2) ∧ ¬Accounted leftWorld 2 :=
  have law := throw_accounted_iff refuse freshWorld openedWorld leftWorld telegramAlert callProvider none 2 "provider 500" alert_throws
  ⟨law.2.1,law.2.2 fun _ => ⟨⟨(),rfl⟩,fun _ => trivial⟩⟩

/-- A callback's error is not accounted for. -/
theorem throw_unaccounted : ¬∀ (provide : Unit → (p : Unit) → Except String Unit × Unit) (w thrown left : World Unit)
    (descriptor : DeliveryDescriptor) (dispatch : Nat → Code (fun _ : Unit => Unit) Unit) (gateTtlMs : Option Nat)
    (attemptId : Nat) (e : String), Throws provide w descriptor dispatch gateTtlMs attemptId thrown e left →
      Accounted left attemptId := by
  intro claimed
  have accounted := claimed refuse freshWorld openedWorld leftWorld telegramAlert callProvider none 2 "provider 500" alert_throws
  have failed := accounted.attempt ⟨2,some 1,none,.pending,1,none⟩ (List.mem_singleton.mpr rfl) rfl
  cases failed

end StellarAlerts.DeliveryFailures
