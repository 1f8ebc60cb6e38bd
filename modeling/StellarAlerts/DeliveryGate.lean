import StellarAlerts.Delivery

/-!
At-most-once dispatch. The gate admits one call at a time, and with that the callback
succeeds once, as long as no gate runs out under its call, nobody fails open into
company and a success is marked (`dispatch_at_most_once`).
-/
namespace StellarAlerts.DeliveryGate
open Histories Interleaving RemoteCalls Delivery

/-- A call of `deliverWithIdempotency` for the delivery key. -/
structure Call where
  descriptor : DeliveryDescriptor
  gateTtlMs : Option Nat
deriving DecidableEq, Repr

/-- The callback, which is given the attempt. -/
abbrev Reply (_ : Nat) : Type := Unit

def dispatch (attemptId : Nat) : Code Reply Unit := ask (.provider attemptId)
def Call.program (call : Call) : Program (Query Nat) (Value Reply) (Except String DeliveryOutcome) :=
  (deliverWithIdempotency call.descriptor dispatch call.gateTtlMs).run
abbrev System := Interleaving.System (World Unit) (Query Nat) (Value Reply) (Except String DeliveryOutcome)
def provide (env : Unit) (attemptId : Nat) : Except String (Reply attemptId) × Unit := (.ok (),env)
def step : System → Input Call Nat → Option (Answered (Query Nat) (Value Reply)) × System :=
  Interleaving.step (exec provide) Call.program elapse

/-! ### Places of a call -/

/-- What a call past the gate has done. -/
inductive Stage where
  | checking
  | cleared
  | recorded (attemptId : Nat)
  | succeeded (attemptId : Nat)
  | marked
deriving DecidableEq, Repr

/-- A call waits for its token, tries the gate under it, or is inside: with the gate set, or let in by a failure of Redis. -/
inductive Place where
  | waiting
  | trying (token : Nat)
  | inside (gated : Bool) (token : Nat) (stage : Stage)
  | left
deriving DecidableEq, Repr

def Stage.allows : Stage → Query Nat → Prop
  | .checking, .findDelivery => True
  | .checking, .findDeliveredAttempt => True
  | .cleared, .findDelivery => True
  | .cleared, .countAttempts => True
  | .cleared, .upsertDelivery _ => True
  | .cleared, .updateDelivery _ (.inProgress _) => True
  | .cleared, .createAttempt _ _ => True
  | .recorded _, .provider _ => True
  | .succeeded attemptId, .updateAttempt id (.delivered _) => id = attemptId
  | .marked, .updateDelivery _ .delivered => True
  | .marked, .updateManyDelivery .delivered => True
  | _, _ => False

def allowed : Place → Query Nat → Prop
  | .waiting, .findDelivery => True
  | .waiting, .findDeliveredAttempt => True
  | .waiting, .randomUUID => True
  | .trying _, .findDelivery => True
  | .trying _, .findDeliveredAttempt => True
  | .trying token, .setGate under _ => under = token
  | .inside _ token stage, .evalReleaseGate under => under = token ∧ ∀ attemptId, stage ≠ .succeeded attemptId
  | .inside _ _ stage, q => stage.allows q
  | _, _ => False

def Stage.after : Stage → (q : Query Nat) → Except String (Value Reply q) → Stage
  | .checking, .findDeliveredAttempt, .ok none => .cleared
  | .cleared, .createAttempt _ _, .ok attemptId => .recorded attemptId
  | .recorded attemptId, .provider _, .ok _ => .succeeded attemptId
  | .succeeded _, .updateAttempt _ _, _ => .marked
  | stage, _, _ => stage

def after : Place → (q : Query Nat) → Except String (Value Reply q) → Place
  | .waiting, .randomUUID, .ok token => .trying token
  | .trying token, .setGate _ _, .ok true => .inside true token .checking
  | .trying token, .setGate _ _, .error _ => .inside false token .checking
  | .inside _ _ _, .evalReleaseGate _, _ => .left
  | .inside gated token stage, q, answer => .inside gated token (stage.after q answer)
  | place, _, _ => place

/-- A call that has ended is not inside. -/
def ended (_ : Except String DeliveryOutcome) : Place → Prop
  | .inside _ _ _ => False
  | _ => True

section Follow
variable {gated : Bool} {token : Nat}

/-- Inside, a call goes from stage to stage; after a success it marks the attempt. -/
theorem dispatchOnce_follows (descriptor : DeliveryDescriptor) :
    Follows allowed after
      (fun _ place => ∃ stage, place = .inside gated token stage ∧ ∀ attemptId, stage ≠ .succeeded attemptId)
      (.inside gated token .checking) (dispatchOnce descriptor dispatch).run := by
  refine follows_bindCode.mpr (alreadyDelivered_follows (Place.inside gated token .checking) ⟨trivial,fun _ => rfl⟩ trivial
    ⟨_,rfl,nofun⟩ fun answer => ?_)
  rcases answer with e | found
  · exact ⟨_,rfl,nofun⟩
  cases found with
  | some attempt => exact ⟨_,rfl,nofun⟩
  | none =>
    refine follows_bindCode.mpr (recordDeliveryAttempt_follows ⟨trivial,fun _ => rfl⟩ ⟨trivial,fun _ => rfl⟩
      (fun _ => ⟨trivial,fun _ => rfl⟩) (fun _ _ => ⟨trivial,fun _ => rfl⟩) (fun _ _ => trivial) (fun _ => ⟨_,rfl,nofun⟩)
      (fun id n answer => ?_) _)
    rcases answer with e | attemptId
    · exact ⟨_,rfl,nofun⟩
    refine follows_asked trivial (fun _ => ⟨_,rfl,nofun⟩) fun _ => ?_
    refine follows_bindCode.mpr (markDeliveryDelivered_follows rfl (fun _ => ⟨_,rfl,nofun⟩) (fun _ => ⟨_,rfl,nofun⟩)
      (fun _ _ => ⟨trivial,fun _ => rfl⟩) (fun _ => ⟨trivial,fun _ => rfl⟩))

end Follow

theorem program_follows (call : Call) : Follows allowed after ended .waiting call.program := by
  refine follows_bindCode.mpr (alreadyDelivered_follows Place.waiting ⟨trivial,fun _ => rfl⟩ trivial trivial fun answer => ?_)
  rcases answer with e | found
  · trivial
  cases found with
  | some attempt => trivial
  | none =>
    have entered : ∀ gated token, Follows allowed after ended (.inside gated token .checking)
        (withFinally (dispatchOnce call.descriptor dispatch) (do let _ ← releaseDeliveryGate token)).run := by
      intro gated token
      refine follows_withFinally.mpr (follows_mono ?_ (dispatchOnce_follows call.descriptor))
      rintro outcome place ⟨stage,rfl,unsucceeded⟩
      refine follows_bindCode.mpr (follows_tryCatch.mpr (follows_bindCode.mpr ⟨⟨rfl,unsucceeded⟩,fun answer => ?_⟩))
      rcases answer with e | released
      · trivial
      · trivial
    refine follows_bindCode.mpr (follows_bindCode.mpr (follows_ask.mpr ⟨trivial,fun answer => ?_⟩))
    rcases answer with e | token
    · trivial
    refine acquireFrom_follows ?_ ?_ ?_ ?_ ?_ _
    · rfl
    · rfl
    · refine follows_bindCode.mpr (alreadyDelivered_follows (Place.trying token) ⟨trivial,fun _ => rfl⟩ trivial trivial
        fun answer => ?_)
      rcases answer with e | found
      · trivial
      · trivial
    · exact entered true token
    · exact fun _ => entered false token

/-! ### Inside the gate -/

/-- An attempt is recorded as delivered. -/
def Recorded (w : World Unit) : Prop := ∃ row ∈ w.notificationDeliveryAttempt, row.status = .delivered

def Place.Inside : Place → Prop
  | .inside _ _ _ => True
  | _ => False

/-- Inside, with the gate set. -/
def Place.Gated : Place → Prop
  | .inside gated _ _ => gated = true
  | _ => False

/-- Inside, without it. -/
def Place.Ungated : Place → Prop
  | .inside gated _ _ => gated = false
  | _ => False

/-- Past the last check and before the mark. -/
def Place.Unmarked : Place → Prop
  | .inside _ _ .checking => False
  | .inside _ _ .marked => False
  | .inside _ _ _ => True
  | _ => False

/-- The dispatch has succeeded and the attempt is not marked yet. -/
def Place.Succeeded : Place → Prop
  | .inside _ _ (.succeeded _) => True
  | _ => False

/-- The attempt that the call has recorded. -/
def Place.attempt : Place → Option Nat
  | .inside _ _ (.recorded attemptId) => some attemptId
  | .inside _ _ (.succeeded attemptId) => some attemptId
  | _ => none

variable {p : Place}

theorem Place.Gated.inside (gated : p.Gated) : p.Inside := by
  cases p with
  | inside _ _ _ => trivial
  | _ => cases gated

theorem Place.Unmarked.inside (unmarked : p.Unmarked) : p.Inside := by
  cases p with
  | inside _ _ _ => trivial
  | _ => cases unmarked

theorem Place.inside_of_attempt {attemptId : Nat} (attempted : p.attempt = some attemptId) : p.Inside := by
  cases p with
  | inside _ _ _ => trivial
  | _ => cases attempted

/-- What a place takes for granted: the gate that was set is still there, a call past
    its check finds nothing delivered, and the row of its attempt is there. -/
structure Fits (w : World Unit) (p : Place) : Prop where
  gated : p.Gated → w.gateTaken = true
  unrecorded : p.Unmarked → ¬ Recorded w
  row : ∀ attemptId, p.attempt = some attemptId → ∃ row ∈ w.notificationDeliveryAttempt, row.id = attemptId

variable {w : World Unit}

theorem fits_outside (outside : ¬ p.Inside) : Fits w p where
  gated gated := absurd gated.inside outside
  unrecorded unmarked := absurd unmarked.inside outside
  row _ attempted := absurd (Place.inside_of_attempt attempted) outside

/-- One call at a time is inside, every place fits, and the callback has succeeded never, or once, which is recorded or about to be. -/
structure Inv (w : World Unit) (places : Nat → Option Place) (successes : Nat) : Prop where
  single : ∀ c d p q, places c = some p → places d = some q → p.Inside → q.Inside → c = d
  fits : ∀ c p, places c = some p → Fits w p
  once : successes = 0 ∨ successes = 1 ∧ (Recorded w ∨ ∃ c p, places c = some p ∧ p.Succeeded)

theorem inv_start (w : World Unit) : Inv w (fun _ => none) 0 := ⟨nofun,nofun,.inl rfl⟩

section Steps
variable {w w' : World Unit} {places : Nat → Option Place} {successes successes' : Nat} {c : Nat} {p p' : Place}

theorem update_cases {new : Option Place} {d : Nat} {q : Place} (there : Function.update places c new d = some q) :
    d = c ∧ new = some q ∨ d ≠ c ∧ places d = some q := by
  by_cases own : d = c
  · subst own
    rw [Function.update_self] at there
    exact .inl ⟨rfl,there⟩
  · rw [Function.update_of_ne own] at there
    exact .inr ⟨own,there⟩

section
variable (inv : Inv w places successes)
include inv

/-- A thread moves, and with it perhaps the state. -/
theorem Inv.advance {new : Option Place}
    (enters : ∀ q, new = some q → q.Inside →
      (∃ p, places c = some p ∧ p.Inside) ∨ ∀ d q, places d = some q → ¬ q.Inside)
    (own : ∀ q, new = some q → Fits w' q) (others : ∀ d q, d ≠ c → places d = some q → q.Inside → Fits w' q)
    (once : successes' = 0 ∨ successes' = 1 ∧
      (Recorded w' ∨ ∃ d q, Function.update places c new d = some q ∧ q.Succeeded)) :
    Inv w' (Function.update places c new) successes' where
  single d e p q there there' inside inside' := by
    have alone : ∀ q, new = some q → q.Inside → ∀ f r, f ≠ c → places f = some r → ¬ r.Inside := by
      intro q isNew inside f r other old insideOld
      rcases enters q isNew inside with ⟨before,atBefore,insideBefore⟩ | empty
      · exact other (inv.single f c r before old atBefore insideOld insideBefore)
      · exact empty f r old insideOld
    rcases update_cases there with ⟨rfl,isNew⟩ | ⟨other,old⟩ <;>
      rcases update_cases there' with ⟨same,isNew'⟩ | ⟨other',old'⟩
    · exact same.symm
    · exact absurd inside' (alone p isNew inside e q other' old')
    · subst same
      exact absurd inside (alone q isNew' inside' d p other old)
    · exact inv.single d e p q old old' inside inside'
  fits d q there := by
    rcases update_cases there with ⟨_,isNew⟩ | ⟨other,old⟩
    · exact own q isNew
    · by_cases inside : q.Inside
      · exact others d q other old inside
      · exact fits_outside inside
  once := once

/-- What was true of the successes still is, if nothing recorded is lost and a thread about to mark its success has marked it. -/
theorem Inv.once_kept {new : Option Place} (kept : Recorded w → Recorded w')
    (own : ∀ p, places c = some p → p.Succeeded → Recorded w' ∨ ∃ q, new = some q ∧ q.Succeeded) :
    successes = 0 ∨ successes = 1 ∧
      (Recorded w' ∨ ∃ d q, Function.update places c new d = some q ∧ q.Succeeded) := by
  rcases inv.once with none | ⟨one,recorded | ⟨d,p,there,succeeded⟩⟩
  · exact .inl none
  · exact .inr ⟨one,.inl (kept recorded)⟩
  · refine .inr ⟨one,?_⟩
    by_cases isOwn : d = c
    · subst isOwn
      rcases own p there succeeded with recorded | ⟨q,isNew,still⟩
      · exact .inl recorded
      · exact .inr ⟨d,q,by rw [Function.update_self]; exact isNew,still⟩
    · exact .inr ⟨d,p,by rw [Function.update_of_ne isOwn]; exact there,succeeded⟩

theorem Inv.once_moved (there : places c = some p) (kept : Recorded w → Recorded w')
    (own : p.Succeeded → Recorded w' ∨ p'.Succeeded) :
    successes = 0 ∨ successes = 1 ∧
      (Recorded w' ∨ ∃ d q, Function.update places c (some p') d = some q ∧ q.Succeeded) := by
  refine inv.once_kept kept ?_
  intro q there' succeeded
  rw [there] at there'
  cases there'
  rcases own succeeded with recorded | still
  · exact .inl recorded
  · exact .inr ⟨p',rfl,still⟩

/-- A thread that is not about to mark a success may end or start. -/
theorem Inv.forget {new : Option Place}
    (unmarked : ∀ p, places c = some p → ¬ p.Succeeded) (outside : ∀ p, new = some p → ¬ p.Inside) :
    Inv w (Function.update places c new) successes :=
  inv.advance (fun q isNew inside => absurd inside (outside q isNew)) (fun q isNew => fits_outside (outside q isNew))
    (fun d q _ old _ => inv.fits d q old)
    (inv.once_kept id fun p there succeeded => absurd succeeded (unmarked p there))

theorem Inv.advance_inside (there : places c = some p) (inside : p.Inside)
    (own : Fits w' p')
    (once : successes' = 0 ∨ successes' = 1 ∧
      (Recorded w' ∨ ∃ d q, Function.update places c (some p') d = some q ∧ q.Succeeded)) :
    Inv w' (Function.update places c (some p')) successes' := by
  refine inv.advance (fun _ _ _ => .inl ⟨p,there,inside⟩) ?_ ?_ once
  · rintro q ⟨⟩
    exact own
  · intro d q other there' inside'
    exact absurd (inv.single d c q p there' there inside' inside) other

end

/-- The gate and the attempts are as they were. -/
structure Quiet (w w' : World Unit) : Prop where
  gate : w'.gateTaken = w.gateTaken
  attempts : w'.notificationDeliveryAttempt = w.notificationDeliveryAttempt

theorem Quiet.recorded (quiet : Quiet w w') : Recorded w' ↔ Recorded w := by
  unfold Recorded
  rw [quiet.attempts]

theorem Quiet.fits (quiet : Quiet w w') (fits : Fits w p) : Fits w' p where
  gated gated := by rw [quiet.gate]; exact fits.gated gated
  unrecorded unmarked := by rw [quiet.recorded]; exact fits.unrecorded unmarked
  row := by rw [quiet.attempts]; exact fits.row

/-- The queries that touch neither the gate nor the attempts. -/
def isQuiet : Query Nat → Bool
  | .createAttempt _ _ => false
  | .updateAttempt _ _ => false
  | .setGate _ _ => false
  | .evalReleaseGate _ => false
  | _ => true

variable {q : Query Nat}

theorem exec_quiet (w : World Unit) (isQuiet : isQuiet q = true) : Quiet w (exec provide w q).2 := by
  cases q with
  | createAttempt | updateAttempt | setGate | evalReleaseGate => cases isQuiet
  | upsertDelivery n =>
    simp only [exec]
    split <;> exact ⟨rfl,rfl⟩
  | updateDelivery id data =>
    simp only [exec]
    split <;> exact ⟨rfl,rfl⟩
  | findDelivery | findDeliveredAttempt | countAttempts | updateManyDelivery _ | randomUUID | provider _ => exact ⟨rfl,rfl⟩

theorem respond_quiet (w : World Unit) (isQuiet : isQuiet q = true) (outcome : Outcome) :
    Quiet w (respond (exec provide) w q outcome).2 := by
  cases outcome with
  | ok => exact exec_quiet w isQuiet
  | failed message => exact ⟨rfl,rfl⟩
  | lost message => exact exec_quiet w isQuiet

theorem Inv.advance_quiet (inv : Inv w places successes) (quiet : Quiet w w') (there : places c = some p)
    (enters : p'.Inside → p.Inside) (own : Fits w p') (kept : p.Succeeded → p'.Succeeded) :
    Inv w' (Function.update places c (some p')) successes := by
  refine inv.advance ?_ ?_ (fun d q _ old _ => quiet.fits (inv.fits d q old))
    (inv.once_moved there quiet.recorded.mpr fun succeeded => .inr (kept succeeded))
  · rintro q ⟨⟩ inside
    exact .inl ⟨p,there,enters inside⟩
  · rintro q ⟨⟩
    exact quiet.fits own

/-! ### One call of a thread -/

/-- The callback has completed successfully. -/
def completes : Answered (Query Nat) (Value Reply) → Bool
  | ⟨.provider _,.ok _⟩ => true
  | _ => false

/-- What keeps calls apart: nobody fails open while a call is inside, nobody takes the
    gate while a call that failed open is inside, and the mark is not refused. -/
def QueryMeets (w : World Unit) (places : Nat → Option Place) (outcome : Outcome) : Query Nat → Prop
  | .setGate token ttlMs =>
    match (respond (exec provide) w (.setGate token ttlMs) outcome).1 with
    | .error _ => ∀ d q, places d = some q → ¬ q.Inside
    | .ok true => ∀ d q, places d = some q → ¬ q.Ungated
    | .ok false => True
  | .updateAttempt _ _ => outcome.applied = true
  | _ => True

def Answers (w : World Unit) (places : Nat → Option Place) (c : Nat) (p : Place) (q : Query Nat) (outcome : Outcome)
    (successes : Nat) : Prop :=
  Inv (respond (exec provide) w q outcome).2
    (Function.update places c (some (after p q (respond (exec provide) w q outcome).1)))
    (successes + if completes ⟨q,(respond (exec provide) w q outcome).1⟩ then 1 else 0)

theorem answers_waiting (inv : Inv w places successes) (there : places c = some .waiting) (allows : allowed .waiting q)
    (outcome : Outcome) : Answers w places c .waiting q outcome successes := by
  cases q with
  | findDelivery => exact inv.advance_quiet (respond_quiet w rfl outcome) there id (fits_outside id) id
  | findDeliveredAttempt => exact inv.advance_quiet (respond_quiet w rfl outcome) there id (fits_outside id) id
  | randomUUID =>
    refine inv.advance_quiet (respond_quiet w rfl outcome) there ?_ (fits_outside ?_) ?_ <;>
      cases outcome <;> exact id
  | _ => cases allows

theorem respond_setGate (w : World Unit) (token ttlMs : Nat) (outcome : Outcome) :
    (∃ gate, w.gateTaken = false ∧ w.now < gate.expiresAt ∧
      respond (exec provide) w (.setGate token ttlMs) outcome = (.ok true,{ w with gate := some gate })) ∨
    (respond (exec provide) w (.setGate token ttlMs) outcome = (.ok false,w)) ∨
    ∃ e w', w'.notificationDeliveryAttempt = w.notificationDeliveryAttempt ∧
      respond (exec provide) w (.setGate token ttlMs) outcome = (.error e,w') := by
  have attempts : (exec provide w (.setGate token ttlMs)).2.notificationDeliveryAttempt =
      w.notificationDeliveryAttempt := by
    obtain ⟨gate,same⟩ := exec_setGate provide w token ttlMs
    rw [same]
  cases outcome with
  | failed message => exact .inr (.inr ⟨message,w,rfl,rfl⟩)
  | lost message => exact .inr (.inr ⟨message,_,attempts,rfl⟩)
  | ok =>
    by_cases zero : ttlMs = 0
    · subst zero
      exact .inr (.inr ⟨_,w,rfl,rfl⟩)
    by_cases taken : w.gateTaken = true
    · exact .inr (.inl (by simp only [respond,exec,zero,if_false,taken,if_true]))
    · exact .inl ⟨⟨token,w.now + ttlMs⟩,by simpa using taken,by show w.now < w.now + ttlMs; omega,
        by simp only [respond,exec,zero,if_false,taken]; rfl⟩

theorem answers_trying {token : Nat} (inv : Inv w places successes) (there : places c = some (.trying token))
    (allows : allowed (.trying token) q) {outcome : Outcome} (meets : QueryMeets w places outcome q) :
    Answers w places c (.trying token) q outcome successes := by
  cases q with
  | findDelivery => exact inv.advance_quiet (respond_quiet w rfl outcome) there id (fits_outside id) id
  | findDeliveredAttempt => exact inv.advance_quiet (respond_quiet w rfl outcome) there id (fits_outside id) id
  | setGate under ttlMs =>
    unfold Answers
    simp only [QueryMeets] at meets
    rcases respond_setGate w under ttlMs outcome with ⟨gate,untaken,unexpired,answered⟩ | answered | ⟨e,w',attempts,answered⟩
    · -- no gated call is inside, since the gate was free, and none that failed open
      rw [answered] at meets ⊢
      have empty : ∀ d q, places d = some q → ¬ q.Inside := by
        intro d q there' inside
        have fits := inv.fits d q there'
        cases q with
        | inside gated _ _ =>
          cases gated with
          | true =>
            have taken := fits.gated rfl
            rw [untaken] at taken
            cases taken
          | false => exact meets d _ there' rfl
        | _ => exact inside
      refine inv.advance (fun _ _ _ => .inr empty) ?_ (fun d q _ there' inside => absurd inside (empty d q there')) ?_
      · rintro q ⟨⟩
        refine ⟨fun _ => ?_,nofun,nofun⟩
        simpa [World.gateTaken] using unexpired
      · exact inv.once_moved there id nofun
    · rw [answered]
      exact inv.advance_quiet ⟨rfl,rfl⟩ there id (fits_outside id) id
    · rw [answered] at meets ⊢
      refine inv.advance (fun _ _ _ => .inr meets) ?_ (fun d q _ there' inside => absurd inside (meets d q there')) ?_
      · rintro q ⟨⟩
        exact ⟨nofun,nofun,nofun⟩
      · refine inv.once_moved there (fun recorded => ?_) nofun
        unfold Recorded
        rw [attempts]
        exact recorded
  | _ => cases allows

section Inside
variable {gated : Bool} {token : Nat}

theorem answers_release {stage : Stage} (inv : Inv w places successes)
    (there : places c = some (.inside gated token stage)) {under : Nat}
    (allows : allowed (.inside gated token stage) (.evalReleaseGate under)) (outcome : Outcome) :
    Answers w places c (.inside gated token stage) (.evalReleaseGate under) outcome successes := by
  have attempts : (exec provide w (.evalReleaseGate under)).2.notificationDeliveryAttempt =
      w.notificationDeliveryAttempt := by
    obtain ⟨gate,same⟩ := exec_evalReleaseGate provide w under
    rw [same]
  have kept : Recorded w → Recorded (respond (exec provide) w (.evalReleaseGate under) outcome).2 := by
    rintro ⟨row,listed,delivered⟩
    cases outcome with
    | failed message => exact ⟨row,listed,delivered⟩
    | ok => exact ⟨row,by rw [respond,attempts]; exact listed,delivered⟩
    | lost message => exact ⟨row,by rw [respond,attempts]; exact listed,delivered⟩
  refine inv.advance_inside there trivial (fits_outside id) (inv.once_moved there kept ?_)
  intro succeeded
  cases stage with
  | succeeded attemptId => exact absurd rfl (allows.2 attemptId)
  | _ => cases succeeded

variable {q : Query Nat}

theorem answers_checking (inv : Inv w places successes) (there : places c = some (.inside gated token .checking))
    (allows : Stage.allows .checking q) (outcome : Outcome) :
    Answers w places c (.inside gated token .checking) q outcome successes := by
  have fits := inv.fits c _ there
  cases q with
  | findDelivery => exact inv.advance_quiet (respond_quiet w rfl outcome) there id fits id
  | findDeliveredAttempt =>
    refine inv.advance_quiet (respond_quiet w rfl outcome) there (fun _ => trivial) ?_ fun succeeded => by cases succeeded
    cases outcome with
    | failed message => exact fits
    | lost message => exact fits
    | ok =>
      cases found : w.notificationDeliveryAttempt.find? fun row => row.status = .delivered with
      | some row =>
        simp only [respond,exec,found]
        exact fits
      | none =>
        simp only [respond,exec,found]
        refine ⟨fits.gated,fun _ => ?_,fun attemptId isAttempt => by cases isAttempt⟩
        rintro ⟨row,listed,delivered⟩
        have missed := List.find?_eq_none.mp found row listed
        simp [delivered] at missed
  | _ => cases allows

theorem recorded_createAttempt (deliveryId : Option Nat) (n : Nat) :
    Recorded (w.createAttempt deliveryId n) ↔ Recorded w := by
  constructor
  · rintro ⟨row,listed,delivered⟩
    rcases List.mem_append.mp listed with old | new
    · exact ⟨row,old,delivered⟩
    · rw [List.mem_singleton.mp new] at delivered
      cases delivered
  · rintro ⟨row,listed,delivered⟩
    exact ⟨row,List.mem_append_left _ listed,delivered⟩

theorem answers_cleared (inv : Inv w places successes) (there : places c = some (.inside gated token .cleared))
    (allows : Stage.allows .cleared q) (outcome : Outcome) :
    Answers w places c (.inside gated token .cleared) q outcome successes := by
  have fits := inv.fits c _ there
  cases q with
  | findDelivery => exact inv.advance_quiet (respond_quiet w rfl outcome) there id fits id
  | countAttempts => exact inv.advance_quiet (respond_quiet w rfl outcome) there id fits id
  | upsertDelivery n => exact inv.advance_quiet (respond_quiet w rfl outcome) there id fits id
  | updateDelivery id data =>
    cases data with
    | inProgress n => exact inv.advance_quiet (respond_quiet w rfl outcome) there (fun inside => inside) fits nofun
    | _ => cases allows
  | createAttempt deliveryId n =>
    have created : Fits (w.createAttempt deliveryId n) (.inside gated token .cleared) :=
      ⟨fits.gated,fun unmarked => by rw [recorded_createAttempt]; exact fits.unrecorded unmarked,nofun⟩
    unfold Answers
    by_cases taken : w.notificationDeliveryAttempt.any fun row => row.attempt = n
    · cases outcome <;> simp only [respond,exec,taken,if_true] <;>
        exact inv.advance_quiet ⟨rfl,rfl⟩ there id fits id
    · cases outcome with
      | failed message => exact inv.advance_quiet ⟨rfl,rfl⟩ there id fits id
      | lost message =>
        simp only [respond,exec,taken]
        exact inv.advance_inside there trivial created (inv.once_moved there (recorded_createAttempt _ _).mpr nofun)
      | ok =>
        simp only [respond,exec,taken]
        refine inv.advance_inside there trivial ⟨created.gated,fun _ => created.unrecorded trivial,?_⟩ ?_
        · rintro id ⟨⟩
          exact ⟨_,List.mem_append_right _ (List.mem_cons_self ..),rfl⟩
        · exact inv.once_moved there (recorded_createAttempt deliveryId n).mpr nofun
  | _ => cases allows

variable {attemptId : Nat}

theorem answers_recorded (inv : Inv w places successes) (there : places c = some (.inside gated token (.recorded attemptId)))
    (allows : Stage.allows (.recorded attemptId) q) (outcome : Outcome) :
    Answers w places c (.inside gated token (.recorded attemptId)) q outcome successes := by
  have fits := inv.fits c _ there
  have none : successes = 0 := by
    rcases inv.once with none | ⟨_,recorded | ⟨d,p,there',succeeded⟩⟩
    · exact none
    · exact absurd recorded (fits.unrecorded trivial)
    · cases p with
      | inside gated' token' stage =>
        have same := inv.single d c _ _ there' there trivial trivial
        rw [same,there] at there'
        cases there'
        cases succeeded
      | _ => cases succeeded
  cases q with
  | provider id =>
    cases outcome with
    | failed message => exact inv.advance_quiet ⟨rfl,rfl⟩ there (fun inside => inside) fits nofun
    | lost message => exact inv.advance_quiet ⟨rfl,rfl⟩ there (fun inside => inside) fits nofun
    | ok =>
      refine inv.advance_inside there trivial ⟨fits.gated,fun _ => fits.unrecorded trivial,fits.row⟩ (.inr ⟨?_,.inr ?_⟩)
      · rw [none]
        rfl
      · exact ⟨c,_,Function.update_self ..,trivial⟩
  | _ => cases allows

theorem recorded_updateAttempt {row : NotificationDeliveryAttempt} (listed : row ∈ w.notificationDeliveryAttempt)
    (isRow : row.id = attemptId) (providerRequestId : Option String) :
    Recorded (w.updateAttempt attemptId (.delivered providerRequestId)) :=
  ⟨_,List.mem_map_of_mem listed,by simp [isRow,AttemptUpdate.apply]⟩

theorem answers_succeeded (inv : Inv w places successes)
    (there : places c = some (.inside gated token (.succeeded attemptId))) (allows : Stage.allows (.succeeded attemptId) q)
    {outcome : Outcome} (meets : QueryMeets w places outcome q) :
    Answers w places c (.inside gated token (.succeeded attemptId)) q outcome successes := by
  have fits := inv.fits c _ there
  cases q with
  | updateAttempt id data =>
    cases data with
    | failed error => cases allows
    | delivered providerRequestId =>
      obtain rfl : id = attemptId := allows
      obtain ⟨row,listed,isRow⟩ := fits.row id rfl
      have applied : (respond (exec provide) w (.updateAttempt id (.delivered providerRequestId)) outcome).2 =
          w.updateAttempt id (.delivered providerRequestId) := by
        have found : ∃ r, (w.notificationDeliveryAttempt.find? fun row => row.id = id) = some r := by
          rw [← Option.isSome_iff_exists,List.find?_isSome]
          exact ⟨row,listed,by simpa using isRow⟩
        obtain ⟨r,isFound⟩ := found
        cases outcome with
        | failed message => cases meets
        | ok => simp only [respond,exec,isFound]
        | lost message => simp only [respond,exec,isFound]
      unfold Answers
      rw [applied]
      have recorded := recorded_updateAttempt listed isRow providerRequestId
      refine inv.advance_inside there trivial ⟨fits.gated,?_,?_⟩ ?_
      · intro unmarked
        cases unmarked
      · intro other isAttempt
        cases isAttempt
      · exact inv.once_moved there (fun _ => recorded) fun _ => .inl recorded
  | _ => cases allows

theorem answers_marked (inv : Inv w places successes) (there : places c = some (.inside gated token .marked))
    (allows : Stage.allows .marked q) (outcome : Outcome) :
    Answers w places c (.inside gated token .marked) q outcome successes := by
  have fits := inv.fits c _ there
  cases q with
  | updateDelivery id data =>
    cases data with
    | delivered => exact inv.advance_quiet (respond_quiet w rfl outcome) there (fun inside => inside) fits nofun
    | _ => cases allows
  | updateManyDelivery data =>
    cases data with
    | delivered => exact inv.advance_quiet (respond_quiet w rfl outcome) there id fits id
    | _ => cases allows
  | _ => cases allows

end Inside

theorem answers_allowed (inv : Inv w places successes) (there : places c = some p) (allows : allowed p q) {outcome : Outcome}
    (meets : QueryMeets w places outcome q) : Answers w places c p q outcome successes := by
  cases p with
  | waiting => exact answers_waiting inv there allows outcome
  | trying token => exact answers_trying inv there allows meets
  | left => cases allows
  | inside gated token stage =>
    by_cases release : ∃ under, q = .evalReleaseGate under
    · obtain ⟨under,rfl⟩ := release
      exact answers_release inv there allows outcome
    · have inner : stage.allows q := by
        cases q with
        | evalReleaseGate under => exact absurd ⟨under,rfl⟩ release
        | _ => exact allows
      cases stage with
      | checking => exact answers_checking inv there inner outcome
      | cleared => exact answers_cleared inv there inner outcome
      | recorded attemptId => exact answers_recorded inv there inner outcome
      | succeeded attemptId => exact answers_succeeded inv there inner meets
      | marked => exact answers_marked inv there inner outcome

end Steps

/-! ### Runs -/

/-- No gate runs out while its call is inside, the calls are kept apart, and no process exits between a success and its mark. -/
def Meets (s : System) : Input Call Nat → Prop
  | .start _ _ => True
  | .proceed c outcome => ∀ q, s.At c q → QueryMeets s.world (s.places after .waiting) outcome q
  | .exit c => ∀ p, s.places after .waiting c = some p → ¬ p.Succeeded
  | .outside ms => ∀ c p, s.places after .waiting c = some p → p.Gated → (elapse ms s.world).gateTaken = true

/-- The dispatches that completed successfully. -/
def successes (past : List (Transition System (Input Call Nat) (Option (Answered (Query Nat) (Value Reply))))) : Nat :=
  past.countP fun t => t.answer.any completes

variable {s : System}

theorem inv_step (placed : Placed allowed after ended .waiting s) {n : Nat} (inv : Inv s.world (s.places after .waiting) n)
    {i : Input Call Nat} (meets : Meets s i) :
    Inv (step s i).2.world ((step s i).2.places after .waiting) (n + if (step s i).1.any completes then 1 else 0) := by
  unfold step
  rcases placed_cases placed i with same | ⟨c,call,rfl,ended,answered,world,moved⟩ |
    ⟨c,outcome,p,q,rfl,standing,there,allows,answered,world,moved⟩ | ⟨c,rfl,answered,world,moved⟩ |
    ⟨ms,rfl,answered,world,moved⟩
  · rw [same]
    exact inv
  · rw [answered,world,moved]
    refine inv.forget (fun p there succeeded => ?_) ?_
    · obtain ⟨a,isOver⟩ := ended p there
      cases p with
      | inside _ _ _ => cases isOver
      | _ => cases succeeded
    · rintro p ⟨⟩
      exact id
  · rw [answered,world,moved]
    exact answers_allowed inv there allows (meets q standing)
  · rw [answered,world,moved]
    exact inv.forget meets nofun
  · rw [answered,world,moved]
    refine ⟨inv.single,fun c p there => ?_,inv.once⟩
    have fits := inv.fits c p there
    exact ⟨fun gated => meets c p there gated,fits.unrecorded,fits.row⟩

theorem successes_le_one (w : World Unit) (inputs : List (Input Call Nat))
    (meets : ∀ t ∈ history step (System.start w) inputs, Meets t.before t.input) :
    successes (history step (System.start w) inputs) ≤ 1 := by
  have carried : (∀ t ∈ history step (System.start w) inputs, Meets t.before t.input) →
      Placed allowed after ended .waiting (run step (System.start w) inputs) ∧
      Inv (run step (System.start w) inputs).world ((run step (System.start w) inputs).places after .waiting)
        (successes (history step (System.start w) inputs)) := by
    refine history_rec (P := fun past s => (∀ t ∈ past, Meets t.before t.input) →
      Placed allowed after ended .waiting s ∧ Inv s.world (s.places after .waiting) (successes past)) ?_ ?_ inputs
    · exact fun _ => ⟨placed_start w,inv_start w⟩
    intro past s i holds meetsAll
    obtain ⟨placed,inv⟩ := holds fun t member => meetsAll t (List.mem_append_left _ member)
    refine ⟨placed_step program_follows placed i,?_⟩
    have counted : successes (past ++ [transition step s i]) =
        successes past + if (step s i).1.any completes then 1 else 0 := by
      simp [successes,List.countP_append,List.countP_cons,transition]
    rw [counted]
    exact inv_step placed inv (meetsAll (transition step s i) (List.mem_append_right _ (List.mem_cons_self ..)))
  rcases (carried meets).2.once with none | ⟨one,_⟩
  · omega
  · omega

/-! ### Calls after a recorded delivery -/

/-- A call that starts on a recorded delivery looks the delivery up, then an attempt; it never learns that there is none. -/
inductive LatePlace where
  | looking
  | searching
  | settled
  | impossible

def lateAllowed : LatePlace → Query Nat → Prop
  | .looking, .findDelivery => True
  | .searching, .findDeliveredAttempt => True
  | .impossible, _ => True
  | _, _ => False

def lateAfter : LatePlace → (q : Query Nat) → Except String (Value Reply q) → LatePlace
  | .looking, _, _ => .searching
  | .searching, .findDeliveredAttempt, .ok none => .impossible
  | .searching, _, _ => .settled
  | place, _, _ => place

/-- It has skipped the dispatch, or thrown the error of a lookup. -/
def Skipped (ended : Except String DeliveryOutcome) : Prop :=
  ended = .ok ⟨false,.skipped,none⟩ ∨ ∃ e, ended = .error e

def latePost (ended : Except String DeliveryOutcome) : LatePlace → Prop
  | .impossible => True
  | _ => Skipped ended

def LatePlace.calls : LatePlace → Nat
  | .looking => 0
  | .searching => 1
  | _ => 2

theorem program_late (call : Call) : Follows lateAllowed lateAfter latePost .looking call.program := by
  refine follows_bindCode.mpr (alreadyDelivered_follows LatePlace.searching ⟨trivial,fun _ => rfl⟩ trivial
    (.inl rfl) fun answer => ?_)
  rcases answer with e | found
  · exact .inr ⟨e,rfl⟩
  cases found with
  | some attempt => exact .inl rfl
  | none => exact follows_free (fun _ => ⟨trivial,fun _ => rfl⟩) (fun _ => trivial) _

theorem recorded_exec {q : Query Nat} (marks : ∀ id e, q ≠ .updateAttempt id (.failed e)) (recorded : Recorded w) :
    Recorded (exec provide w q).2 := by
  obtain ⟨row,listed,delivered⟩ := recorded
  cases q with
  | createAttempt deliveryId n =>
    simp only [exec]
    split
    · exact ⟨row,listed,delivered⟩
    · exact ⟨row,List.mem_append_left _ listed,delivered⟩
  | updateAttempt id data =>
    simp only [exec]
    split
    · refine ⟨_,List.mem_map_of_mem listed,?_⟩
      by_cases own : row.id = id
      · cases data with
        | delivered providerRequestId => simp [own,AttemptUpdate.apply]
        | failed error => exact absurd rfl (marks id error)
      · simpa [own] using delivered
    · exact ⟨row,listed,delivered⟩
  | setGate token ttlMs =>
    obtain ⟨gate,same⟩ := exec_setGate provide w token ttlMs
    rw [same]
    exact ⟨row,listed,delivered⟩
  | evalReleaseGate token =>
    obtain ⟨gate,same⟩ := exec_evalReleaseGate provide w token
    rw [same]
    exact ⟨row,listed,delivered⟩
  | _ => exact (exec_quiet w rfl).recorded.mpr ⟨row,listed,delivered⟩

theorem recorded_step (placed : Placed allowed after ended .waiting s) (recorded : Recorded s.world) (i : Input Call Nat) :
    Recorded (step s i).2.world := by
  unfold step
  rcases placed_cases placed i with same | ⟨c,call,rfl,_,_,world,_⟩ | ⟨c,outcome,p,q,rfl,_,_,allows,_,world,_⟩ |
    ⟨c,rfl,_,world,_⟩ | ⟨ms,rfl,_,world,_⟩
  · rw [same]
    exact recorded
  · rw [world]
    exact recorded
  · rw [world]
    have marks : ∀ id e, q ≠ .updateAttempt id (.failed e) := by
      rintro id e rfl
      cases p with
      | inside gated token stage => cases stage <;> cases allows
      | _ => cases allows
    cases outcome with
    | failed message => exact recorded
    | ok => exact recorded_exec marks recorded
    | lost message => exact recorded_exec marks recorded
  · rw [world]
    exact recorded
  · rw [world]
    exact recorded

/-- Where a late call stands. -/
structure Late (t : Thread (Query Nat) (Value Reply) (Except String DeliveryOutcome)) : Prop where
  possible : t.place lateAfter .looking ≠ .impossible
  follows : Follows lateAllowed lateAfter latePost (t.place lateAfter .looking) t.rest
  calls : t.made.length = (t.place lateAfter .looking).calls

theorem search_answered (recorded : Recorded w) (outcome : Outcome) :
    lateAfter .searching .findDeliveredAttempt (respond (exec provide) w .findDeliveredAttempt outcome).1 = .settled := by
  cases outcome with
  | failed message => rfl
  | lost message => rfl
  | ok =>
    obtain ⟨row,listed,delivered⟩ := recorded
    cases found : w.notificationDeliveryAttempt.find? fun row => row.status = .delivered with
    | some first => simp [respond,exec,found,lateAfter]
    | none =>
      have missed := List.find?_eq_none.mp found row listed
      simp [delivered] at missed

theorem late_proceed (recorded : Recorded w) {made : List (Answered (Query Nat) (Value Reply))} {q : Query Nat}
    {next : Except String (Value Reply q) → Program (Query Nat) (Value Reply) (Except String DeliveryOutcome)}
    (late : Late ⟨made,.call q next⟩) (outcome : Outcome) :
    Late ⟨made ++ [⟨q,(respond (exec provide) w q outcome).1⟩],next (respond (exec provide) w q outcome).1⟩ := by
  obtain ⟨possible,⟨allows,goesOn⟩,calls⟩ := late
  have moved := Thread.place_append lateAfter .looking made q (respond (exec provide) w q outcome).1 (.call q next)
    (next (respond (exec provide) w q outcome).1)
  have follows := goesOn (respond (exec provide) w q outcome).1
  rw [← moved] at follows
  generalize (Thread.mk made (Program.call q next)).place lateAfter .looking = place at *
  cases place with
  | impossible => exact absurd rfl possible
  | settled => cases allows
  | looking => exact ⟨by rw [moved]; exact nofun,follows,by rw [moved,List.length_append,calls]; rfl⟩
  | searching =>
    cases q with
    | findDeliveredAttempt =>
      rw [search_answered recorded outcome] at moved
      exact ⟨by rw [moved]; exact nofun,follows,by rw [moved,List.length_append,calls]; rfl⟩
    | _ => cases allows

theorem late_step {c : Nat}
    (holds : Placed allowed after ended .waiting s ∧ Recorded s.world ∧ ∀ t, s.threads c = some t → Late t)
    {i : Input Call Nat} (other : ∀ call, i ≠ .start c call) :
    Placed allowed after ended .waiting (step s i).2 ∧ Recorded (step s i).2.world ∧
      ∀ t, (step s i).2.threads c = some t → Late t := by
  obtain ⟨placed,recorded,late⟩ := holds
  refine ⟨placed_step program_follows placed i,recorded_step placed recorded i,?_⟩
  by_cases own : i.number = some c
  · intro t running
    unfold step at running
    rcases step_cases (exec provide) Call.program elapse s i with same | ⟨d,call,rfl,_,_⟩ |
      ⟨d,outcome,made,q,next,rfl,standing,moved⟩ | ⟨d,rfl,moved⟩ | ⟨ms,rfl,_⟩
    · rw [same] at running
      exact late t running
    · cases own
      exact absurd rfl (other call)
    · cases own
      rw [moved,System.put_threads,if_pos rfl] at running
      cases running
      exact late_proceed recorded (late _ standing) outcome
    · cases own
      rw [moved,System.put_threads,if_pos rfl] at running
      cases running
    · cases own
  · intro t running
    rw [step,step_others _ _ _ s own] at running
    exact late t running

theorem late_start (call : Call) : Late ⟨[],call.program⟩ := ⟨nofun,program_late call,rfl⟩

theorem Late.skips {t : Thread (Query Nat) (Value Reply) (Except String DeliveryOutcome)} (late : Late t) :
    t.made.length ≤ 2 ∧ (∀ q next, t.rest = .call q next → q = .findDelivery ∨ q = .findDeliveredAttempt) ∧
      ∀ a, t.rest = .returned a → Skipped a := by
  obtain ⟨possible,follows,calls⟩ := late
  generalize t.place lateAfter .looking = place at *
  refine ⟨?_,?_,?_⟩
  · rw [calls]
    cases place <;> decide
  · intro q next standing
    rw [standing] at follows
    cases place with
    | impossible => exact absurd rfl possible
    | looking =>
      cases q with
      | findDelivery => exact .inl rfl
      | _ => cases follows.1
    | searching =>
      cases q with
      | findDeliveredAttempt => exact .inr rfl
      | _ => cases follows.1
    | settled => cases follows.1
  · intro a returned
    rw [returned] at follows
    cases place with
    | impossible => exact absurd rfl possible
    | looking => exact follows
    | searching => exact follows
    | settled => exact follows

/-- In every run whose steps keep the calls apart the callback succeeds at most once; and in every run a call that starts on a recorded
    delivery makes at most two lookups and ends without dispatching. -/
theorem dispatch_at_most_once (w : World Unit) (inputs : List (Input Call Nat)) :
    ((∀ t ∈ history step (System.start w) inputs, Meets t.before t.input) →
      successes (history step (System.start w) inputs) ≤ 1) ∧
    ∀ first c call second, inputs = first ++ .start c call :: second →
      Recorded (run step (System.start w) first).world → (∀ q, ¬ (run step (System.start w) first).At c q) →
      (∀ again, .start c again ∉ second) → ∀ t, (run step (System.start w) inputs).threads c = some t →
      t.made.length ≤ 2 ∧ (∀ q next, t.rest = .call q next → q = .findDelivery ∨ q = .findDeliveredAttempt) ∧
        ∀ a, t.rest = .returned a → Skipped a := by
  refine ⟨successes_le_one w inputs,?_⟩
  rintro first c call second rfl recorded idle unused t running
  have placed : Placed allowed after ended .waiting (run step (System.start w) first) :=
    run_placed program_follows w first
  have begins : ∀ t, (step (run step (System.start w) first) (.start c call)).2.threads c = some t → Late t := by
    intro t running
    have started : step (run step (System.start w) first) (.start c call) =
        (none,(run step (System.start w) first).put c (some ⟨[],call.program⟩)) := step_start _ _ _ idle call
    rw [started,System.put_threads,if_pos rfl] at running
    cases running
    exact late_start call
  rw [run_append,run_cons] at running
  have late := @run_inv_of_mem _ _ _ step
    (fun s => Placed allowed after ended .waiting s ∧ Recorded s.world ∧ ∀ t, s.threads c = some t → Late t) second
    (fun s i listed holds => late_step holds fun again isStart => unused again (isStart ▸ listed)) _
    ⟨placed_step program_follows placed _,recorded_step placed recorded _,begins⟩
  exact (late.2.2 t running).skips

/-! ### A call on its own -/

/-- A call that runs alone and whose queries are carried out keeps nobody apart. -/
theorem meets_alone (placed : Placed allowed after ended .waiting s) {c : Nat} (alone : ∀ d, d ≠ c → s.threads d = none)
    {outcome : Outcome} (applied : outcome.applied = true) : Meets s (.proceed c outcome) := by
  rintro q ⟨made,next,standing⟩
  have allows := (placed c _ standing).1
  cases q with
  | updateAttempt id data => exact applied
  | setGate token ttlMs =>
    have outside : ∀ d q, s.places after .waiting d = some q → ¬ q.Inside := by
      intro d q there inside
      by_cases own : d = c
      · subst own
        rw [System.places,standing] at there
        cases there
        cases atPlace : (Thread.mk made (Program.call (.setGate token ttlMs) next)).place after .waiting with
        | inside gated under stage =>
          rw [atPlace] at allows
          cases stage <;> cases allows
        | _ =>
          rw [atPlace] at inside
          cases inside
      · rw [System.places,alone d own] at there
        cases there
    simp only [QueryMeets]
    split
    · exact outside
    · intro d q there ungated
      refine outside d q there ?_
      cases q with
      | inside _ _ _ => trivial
      | _ => cases ungated
    · trivial
  | _ => trivial

def freshWorld : World Unit := ⟨0,none,[],none,0,()⟩
def webhookCall : Call := ⟨⟨"p1","webhook","w1",none⟩,none⟩
def oneCall : List (Input Call Nat) := .start 0 webhookCall :: List.replicate 14 (.proceed 0 .ok)

theorem one_call_dispatches :
    (∀ t ∈ history step (System.start freshWorld) oneCall, Meets t.before t.input) ∧
      successes (history step (System.start freshWorld) oneCall) = 1 ∧
      successes (history step (System.start freshWorld) oneCall) ≤ 1 := by
  have inputs : ∀ i ∈ oneCall, i = .start 0 webhookCall ∨ i = .proceed 0 .ok := by
    intro i listed
    rcases List.mem_cons.mp listed with rfl | later
    · exact .inl rfl
    · exact .inr (List.eq_of_mem_replicate later)
  have alone := @history_inv _ _ _ step
    (fun s => Placed allowed after ended .waiting s ∧ ∀ d, d ≠ 0 → s.threads d = none)
    (fun _ i => i = .start 0 webhookCall ∨ i = .proceed 0 .ok)
    (by
      rintro s i isInput ⟨placed,alone⟩
      refine ⟨placed_step program_follows placed i,fun d other => ?_⟩
      have others : i.number ≠ some d := by
        rcases isInput with rfl | rfl
        · exact fun same => other (Option.some.inj same).symm
        · exact fun same => other (Option.some.inj same).symm
      rw [step,step_others _ _ _ s others]
      exact alone d other)
    oneCall (System.start freshWorld) (fun t member => inputs _ (input_mem_of_history member))
    ⟨placed_start freshWorld,fun _ _ => rfl⟩
  have meets : ∀ t ∈ history step (System.start freshWorld) oneCall, Meets t.before t.input := by
    intro t member
    obtain ⟨⟨placed,others⟩,_⟩ := alone t member
    rcases inputs _ (input_mem_of_history member) with isStart | isProceed
    · rw [isStart]
      trivial
    · rw [isProceed]
      exact meets_alone placed others rfl
  exact ⟨meets,by decide,(dispatch_at_most_once freshWorld oneCall).1 meets⟩

/-! ### Failing open -/

/-- Two calls find Redis unavailable: both are let in, past a check that shows nothing delivered, and both dispatch. -/
def failingOpen : List (Input Call Nat) :=
  [.start 0 webhookCall,.start 1 webhookCall,.proceed 0 .ok,.proceed 0 .ok,.proceed 0 .ok,.proceed 1 .ok,.proceed 1 .ok,
   .proceed 1 .ok,.proceed 0 (.failed "ECONNREFUSED"),.proceed 1 (.failed "ECONNREFUSED")] ++
  List.replicate 6 (.proceed 0 .ok) ++ List.replicate 6 (.proceed 1 .ok) ++ [.proceed 0 .ok,.proceed 1 .ok]

theorem failing_open_dispatches_twice :
    ¬ ∀ inputs, successes (history step (System.start freshWorld) inputs) ≤ 1 := by
  intro always
  have twice : successes (history step (System.start freshWorld) failingOpen) = 2 := by decide
  have bounded := always failingOpen
  omega

end StellarAlerts.DeliveryGate
