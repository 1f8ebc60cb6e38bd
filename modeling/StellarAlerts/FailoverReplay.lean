import StellarAlerts.DbFailover
import StellarAlerts.JsonTexts

/-!
Buffered mutations in every run. The mutations that were buffered are those that were
applied, the one that is taken, and the buffer, in this order (`buffered_in_order`).
-/
namespace StellarAlerts.DbFailover
open Histories
open Interleaving hiding step
open RemoteCalls

variable {Payload : Type} {p : Platform Payload}

/-- A check that replays, has taken an entry, or is about to end its replay. -/
inductive Place where
  | outside
  | replaying
  | holding (raw : String)
  | closing
deriving DecidableEq

/-- The entry can be read, and its type has a handler. -/
def Platform.accepts (p : Platform Payload) (raw : String) : Bool := (p.parse raw).any fun mutation => p.handles mutation.type

def after (p : Platform Payload) (place : Place) (q : Query Payload) (answer : Except String (Value Payload q)) : Place :=
  match q, answer with
  | .probeSucceeded, .ok true => match place with
    | .outside => .replaying
    | place => place
  | .shift, .ok (some raw) => match place with
    | .replaying => if p.accepts raw then .holding raw else .replaying
    | place => place
  | .handle _ _, .ok _ => match place with
    | .holding _ => .replaying
    | place => place
  | .unshift _, _ => match place with
    | .holding _ => .closing
    | place => place
  | .recovered, _ => match place with
    | .replaying => .closing
    | place => place
  | .endReplay, _ => .outside
  | _, _ => place

/-- Some entries may be pushed. -/
def allowed (p : Platform Payload) (may : String → Prop) : Place → Query Payload → Prop
  | .outside, q => match q with
    | .shift | .handle _ _ | .unshift _ | .resetSuccesses | .recovered | .endReplay => False
    | .push raw => may raw
    | _ => True
  | .replaying, q => match q with
    | .shift | .recovered | .endReplay => True
    | _ => False
  | .holding raw, q => match q with
    | .handle type payload => ∃ mutation, p.parse raw = some mutation ∧ mutation.type = type ∧ mutation.payload = payload
    | .unshift other => other = raw
    | _ => False
  | .closing, q => match q with
    | .resetSuccesses | .length | .controller | .endReplay => True
    | _ => False

section Programs
variable {may : String → Prop}

abbrev Back {α : Type} (p : Platform Payload) (may : String → Prop) (place : Place) (x : Code Payload α) : Prop :=
  Returns (allowed p may) (after p) place x

theorem back_getStatus {place : Place} (calm : place = .outside ∨ place = .closing) :
    Back p may place (getStatus : Code Payload FailoverStatus) := by
  have stays : allowed p may place .length ∧ allowed p may place .controller := by
    rcases calm with rfl | rfl
    · exact ⟨trivial,trivial⟩
    · exact ⟨trivial,trivial⟩
  exact returns_bind (returns_tryCatch (returns_query ⟨stays.1,fun _ => rfl⟩) fun _ => returns_pure _) fun _ =>
    returns_bind (returns_query ⟨stays.2,fun _ => rfl⟩) fun _ => returns_pure _

theorem follows_replayBuffered (rounds : Nat) :
    Follows (allowed p may) (after p) (fun ended place => (ended = .ok true → place = .replaying) ∧
      (place = .replaying ∨ place = .closing)) .replaying (replayBuffered p rounds).run := by
  induction rounds with
  | zero => exact ⟨by rintro ⟨⟩,.inl rfl⟩
  | succ rounds ih =>
    refine follows_bindCode.mpr (follows_query.mpr ⟨trivial,fun answer => ?_⟩)
    match answer with
    | .error e => exact ⟨by rintro ⟨⟩,.inl rfl⟩
    | .ok none => exact ⟨fun _ => rfl,.inl rfl⟩
    | .ok (some raw) =>
      have moved : after p .replaying .shift (.ok (some raw)) = if p.accepts raw then .holding raw else .replaying := rfl
      simp only [moved]
      cases parsed : p.parse raw with
      | none =>
        rw [if_neg (by simp [Platform.accepts,parsed])]
        exact ih
      | some mutation =>
        cases handled : p.handles mutation.type with
        | false =>
          rw [if_neg (by simp [Platform.accepts,parsed,handled])]
          simp only [handled,Bool.not_false,↓reduceIte]
          exact ih
        | true =>
          rw [if_pos (by simp [Platform.accepts,parsed,handled])]
          simp only [handled,Bool.not_true,Bool.false_eq_true,↓reduceIte]
          have handles : allowed p may (.holding raw) (.handle mutation.type mutation.payload) := ⟨mutation,parsed,rfl,rfl⟩
          refine follows_bindCode.mpr (follows_attempt.mpr (follows_query.mpr ⟨handles,fun answer => ?_⟩))
          cases answer with
          | ok _ => exact ih
          | error e =>
            refine follows_bindCode.mpr (follows_query.mpr ⟨rfl,fun answer => ?_⟩)
            cases answer with
            | error e => exact ⟨by rintro ⟨⟩,.inr rfl⟩
            | ok _ =>
              refine follows_bindCode.mpr (follows_query.mpr ⟨trivial,fun answer => ?_⟩)
              cases answer with
              | error e => exact ⟨by rintro ⟨⟩,.inr rfl⟩
              | ok _ => exact ⟨by rintro ⟨⟩,.inr rfl⟩

theorem follows_recover :
    Follows (allowed p may) (after p) (fun _ place => place = .outside) .replaying (recover p).run := by
  have ends : ∀ place, place = .replaying ∨ place = .closing →
      Follows (allowed p may) (after p) (fun _ last => last = .outside) place (ask .endReplay : Code Payload Unit).run := by
    intro place calm
    have closes : allowed p may place .endReplay := by
      rcases calm with rfl | rfl
      · trivial
      · trivial
    exact follows_query.mpr ⟨closes,fun _ => rfl⟩
  refine follows_withFinally.mpr (follows_mono (fun ended place calm => follows_mono ?_ (ends place calm)) ?_)
  · intro cleaned last home
    cases cleaned with
    | ok _ => exact home
    | error e => exact home
  refine follows_bindCode.mpr (follows_mono ?_ (follows_replayBuffered p.rounds))
  rintro (e | drained) place ⟨whenDrained,calm⟩
  · exact calm
  · cases drained with
    | false => exact calm
    | true =>
      obtain rfl := whenDrained rfl
      refine follows_bindCode.mpr (follows_query.mpr ⟨trivial,fun answer => ?_⟩)
      cases answer with
      | error e => exact .inr rfl
      | ok _ =>
        have back : Back p may .closing (do let _ ← getStatus : Code Payload Unit) :=
          returns_bind (back_getStatus (.inr rfl)) fun _ => returns_pure _
        exact follows_mono (fun _ place home => .inr home) back

theorem back_check : Back p may .outside (check p) := by
  refine returns_bind (returns_query ⟨trivial,fun _ => rfl⟩) fun _ =>
    returns_bind (returns_tryCatch ?_ fun message => returns_query ⟨trivial,fun _ => rfl⟩) fun _ => back_getStatus (.inl rfl)
  refine returns_bind (returns_query ⟨trivial,fun _ => rfl⟩) fun _ => ?_
  refine follows_bindCode.mpr (follows_query.mpr ⟨trivial,fun answer => ?_⟩)
  match answer with
  | .error e => rfl
  | .ok false => rfl
  | .ok true => exact follows_recover

theorem back_lagCheck : Back p may .outside (lagCheck : Code Payload ReplicaLagStatus) := by
  refine returns_bind (returns_query ⟨trivial,fun _ => rfl⟩) fun _ =>
    returns_bind (returns_attempt (returns_query ⟨trivial,fun _ => rfl⟩)) fun probed => ?_
  have ends : Back p may .outside (ask .lagStatus : Code Payload ReplicaLagStatus) := returns_query ⟨trivial,fun _ => rfl⟩
  cases probed with
  | error message => exact returns_bind (returns_query ⟨trivial,fun _ => rfl⟩) fun _ => ends
  | ok lagMs => exact returns_bind (returns_query ⟨trivial,fun _ => rfl⟩) fun _ => ends

theorem back_bufferMutation {type : String} {payload : Payload}
    (pushes : ∀ id bufferedAt raw, p.stringify ⟨id,type,payload,bufferedAt⟩ = .ok raw → may raw) :
    Back p may .outside (bufferMutation p type payload) := by
  refine returns_bind (returns_query ⟨trivial,fun _ => rfl⟩) fun size => ?_
  split
  · exact returns_throw _
  · refine returns_bind (returns_query ⟨trivial,fun _ => rfl⟩) fun stamp => ?_
    cases text : p.stringify ⟨stamp.1,type,payload,stamp.2⟩ with
    | error e =>
      simp only [text]
      exact returns_throw e
    | ok raw =>
      simp only [text]
      change Back p may .outside (do
        ask (.push raw)
        return ⟨stamp.1,type,payload,stamp.2⟩ : Code Payload (BufferedMutation Payload))
      exact returns_bind (returns_query ⟨pushes _ _ raw text,fun _ => rfl⟩) fun _ => returns_pure _

theorem back_request {type : String} {payload : Payload}
    (pushes : ∀ id bufferedAt raw, p.stringify ⟨id,type,payload,bufferedAt⟩ = .ok raw → may raw) :
    Back p may .outside (request p type payload) := by
  refine returns_bind (returns_query ⟨trivial,fun _ => rfl⟩) fun readOnly => ?_
  split
  · exact returns_map (back_bufferMutation pushes)
  · exact returns_pure _

def Task.Pushes (p : Platform Payload) (may : String → Prop) : Task Payload → Prop
  | .bufferMutation type payload => ∀ id bufferedAt raw, p.stringify ⟨id,type,payload,bufferedAt⟩ = .ok raw → may raw
  | .request type payload => ∀ id bufferedAt raw, p.stringify ⟨id,type,payload,bufferedAt⟩ = .ok raw → may raw
  | _ => True

theorem follows_task {task : Task Payload} (pushes : task.Pushes p may) :
    Follows (allowed p may) (after p) (fun _ place => place = .outside) .outside (task.program p) := by
  cases task with
  | check => exact returns_map back_check
  | lagCheck => exact returns_map back_lagCheck
  | bufferMutation type payload => exact returns_map (back_bufferMutation pushes)
  | request type payload => exact returns_map (back_request pushes)

end Programs

abbrev Step (Payload : Type) :=
  Transition (System Payload) (Event (Task Payload) Outside) (Option (Answered (Query Payload) (Value Payload)))
abbrev Standing (p : Platform Payload) (may : String → Prop) (s : System Payload) : Prop :=
  Placed (allowed p may) (after p) (fun _ place => place = .outside) .outside s

/-- A check that replays has set the flag, and no other one replays. -/
structure Exclusive (p : Platform Payload) (s : System Payload) : Prop where
  flagged : ∀ c place, s.places (after p) .outside c = some place → place ≠ .outside → s.world.controller.replaying = true
  apart : ∀ c d place place', s.places (after p) .outside c = some place → s.places (after p) .outside d = some place' →
    place ≠ .outside → place' ≠ .outside → c = d

variable {q : Query Payload}

/-- A call comes to replay by its own probe, or it did before and goes on. -/
theorem after_inside {place : Place} {answer : Except String (Value Payload q)} (inside : after p place q answer ≠ .outside) :
    (place ≠ .outside ∧ q ≠ .endReplay) ∨
      (⟨q,answer⟩ : Answered (Query Payload) (Value Payload)) = ⟨.probeSucceeded,.ok true⟩ := by
  cases q with
  | endReplay => exact absurd rfl inside
  | probeSucceeded =>
    match answer with
    | .error e => exact .inl ⟨inside,by rintro ⟨⟩⟩
    | .ok false => exact .inl ⟨inside,by rintro ⟨⟩⟩
    | .ok true => exact .inr rfl
  | _ =>
    refine .inl ⟨?_,by rintro ⟨⟩⟩
    rintro rfl
    refine inside ?_
    first
      | rfl
      | (cases answer <;> rfl)
      | (rcases answer with e | raw
         · rfl
         · cases raw <;> rfl)

variable {w : World}

theorem exec_flag (other : q ≠ .endReplay) (set : w.controller.replaying = true) :
    (exec p w q).2.controller.replaying = true := by
  cases q with
  | endReplay => exact absurd rfl other
  | probeSucceeded => simp [exec,World.probeSucceeded,set]
  | probeFailed message =>
    simp only [exec,World.probeFailed]
    split <;> exact set
  | lagMeasured lagMs =>
    simp only [exec,World.lagMeasured]
    split
    · exact set
    · split <;> exact set
  | _ => exact set

theorem respond_flag (other : q ≠ .endReplay) (set : w.controller.replaying = true) (outcome : Outcome) :
    (respond (exec p) w q outcome).2.controller.replaying = true := by
  cases outcome with
  | failed message => exact set
  | ok => exact exec_flag other set
  | lost message => exact exec_flag other set

theorem probe_flag {outcome : Outcome} (goes : (respond (exec p) w .probeSucceeded outcome).1 = .ok true) :
    w.controller.replaying = false ∧ (respond (exec p) w .probeSucceeded outcome).2.controller.replaying = true := by
  cases outcome with
  | failed message => cases goes
  | lost message => cases goes
  | ok =>
    have replay : (w.probeSucceeded p.config).1 = true := Except.ok.inj goes
    refine ⟨?_,?_⟩
    · simp only [World.probeSucceeded,Bool.and_eq_true,Bool.not_eq_true'] at replay
      exact replay.2
    · change (w.controller.replaying || (w.probeSucceeded p.config).1) = true
      rw [replay,Bool.or_true]

variable {may : String → Prop} {s : System Payload}

theorem step_moves (standing : Standing p may s) (e : Event (Task Payload) Outside) :
    step p s e = (none,s) ∨
    (∃ c, (∀ place, s.places (after p) .outside c = some place → place = .outside) ∧ (step p s e).1 = none ∧
      (step p s e).2.world = s.world ∧
      (step p s e).2.places (after p) .outside = Function.update (s.places (after p) .outside) c (some .outside)) ∨
    (∃ c asked outcome place q, e = .proceed c asked ∧ outcome = (if q.isMemory then .ok else asked) ∧ s.pending c = some q ∧
      s.places (after p) .outside c = some place ∧ allowed p may place q ∧
      (step p s e).1 = some ⟨q,(respond (exec p) s.world q outcome).1⟩ ∧
      (step p s e).2.world = (respond (exec p) s.world q outcome).2 ∧
      (step p s e).2.places (after p) .outside =
        Function.update (s.places (after p) .outside) c (some (after p place q (respond (exec p) s.world q outcome).1))) ∨
    ∃ o, e = .outside o ∧ (step p s e).1 = none ∧ (step p s e).2.world = Outside.apply o s.world ∧
      (step p s e).2.places (after p) .outside = s.places (after p) .outside := by
  rcases @process_cases _ _ _ _ _ _ (exec p) (Task.program p) Outside.apply Query.isMemory _ _ _ _ _ s standing e with same |
    ⟨c,task,_,ended,rest⟩ | moves | outer
  · exact .inl same
  · exact .inr (.inl ⟨c,fun place there => (ended place there).elim fun _ home => home,rest⟩)
  · exact .inr (.inr (.inl moves))
  · exact .inr (.inr (.inr outer))

theorem exclusive_step (standing : Standing p may s) (exclusive : Exclusive p s) (e : Event (Task Payload) Outside) :
    Exclusive p (step p s e).2 := by
  rcases step_moves standing e with same | ⟨c,_,_,world,places⟩ | ⟨c,_,outcome,place,q,_,_,_,atPlace,allows,_,world,places⟩ |
    ⟨o,_,_,world,places⟩
  · rw [same]
    exact exclusive
  · have before : ∀ d there, (step p s e).2.places (after p) .outside d = some there → there ≠ .outside →
        s.places (after p) .outside d = some there := by
      intro d there now inside
      rw [places,Function.update_apply] at now
      split at now
      · exact absurd (Option.some.inj now).symm inside
      · exact now
    refine ⟨fun d there now inside => ?_,fun d d' there there' now now' inside inside' => ?_⟩
    · rw [world]
      exact exclusive.flagged d there (before d there now inside) inside
    · exact exclusive.apart d d' there there' (before d there now inside) (before d' there' now' inside') inside inside'
  · -- The one that moves was inside, or it begins and no other is.
    have own : ∀ there, after p place q (respond (exec p) s.world q outcome).1 = there → there ≠ .outside →
        (step p s e).2.world.controller.replaying = true ∧ (place ≠ .outside ∨ s.world.controller.replaying = false) := by
      rintro there rfl inside
      rw [world]
      rcases after_inside inside with ⟨was,other⟩ | begins
      · exact ⟨respond_flag other (exclusive.flagged c place atPlace was) outcome,.inl was⟩
      · obtain ⟨rfl,goes⟩ := Sigma.mk.inj begins
        obtain ⟨free,set⟩ := probe_flag (eq_of_heq goes)
        exact ⟨set,.inr free⟩
    have others : ∀ d there, d ≠ c → s.places (after p) .outside d = some there → there ≠ .outside →
        (step p s e).2.world.controller.replaying = true := by
      intro d there apart before inside
      rw [world]
      refine respond_flag ?_ (exclusive.flagged d there before inside) outcome
      rintro rfl
      have was : place ≠ .outside := by
        rintro rfl
        exact allows
      exact apart (exclusive.apart d c there place before atPlace inside was)
    have alone : ∀ d there, d ≠ c → s.places (after p) .outside d = some there → there ≠ .outside →
        after p place q (respond (exec p) s.world q outcome).1 = .outside := by
      intro d there apart before inside
      by_contra begins
      rcases (own _ rfl begins).2 with was | free
      · exact apart (exclusive.apart d c there place before atPlace inside was)
      · rw [exclusive.flagged d there before inside] at free
        cases free
    refine ⟨fun d there now inside => ?_,fun d d' there there' now now' inside inside' => ?_⟩
    · rw [places,Function.update_apply] at now
      split at now
      · exact (own there (Option.some.inj now) inside).1
      next apart => exact others d there apart now inside
    · rw [places,Function.update_apply] at now now'
      split at now
      next mine =>
        split at now'
        next also => rw [mine,also]
        next apart => exact absurd ((Option.some.inj now).symm.trans (alone d' there' apart now' inside')) inside
      next apart =>
        split at now'
        next also => exact absurd ((Option.some.inj now').symm.trans (alone d there apart now inside)) inside'
        next => exact exclusive.apart d d' there there' now now' inside inside'
  · refine ⟨fun d there now inside => ?_,fun d d' there there' now now' inside inside' => ?_⟩
    · rw [places] at now
      rw [world]
      have flagged := exclusive.flagged d there now inside
      cases o <;> exact flagged
    · rw [places] at now now'
      exact exclusive.apart d d' there there' now now' inside inside'

def pushOf : Option (Answered (Query Payload) (Value Payload)) → Option String
  | some ⟨.push raw,.ok _⟩ => some raw
  | _ => none

def applyOf : Option (Answered (Query Payload) (Value Payload)) → Option (String × Payload)
  | some ⟨.handle type payload,.ok _⟩ => some (type,payload)
  | _ => none

/-- The entries that were pushed, in order. -/
def pushed (past : List (Step Payload)) : List String := past.filterMap fun t => pushOf t.answer

/-- What handlers were given and came through with, in order. -/
def applied (past : List (Step Payload)) : List (String × Payload) := past.filterMap fun t => applyOf t.answer

def takes (taken : Option String) : Option (Answered (Query Payload) (Value Payload)) → Option String
  | some ⟨.shift,.ok raw⟩ => raw
  | some ⟨.handle _ _,.ok _⟩ => none
  | some ⟨.unshift _,.ok _⟩ => none
  | _ => taken

/-- The entry that was taken out last, until it is applied or put back. -/
def taken (past : List (Step Payload)) : Option String := past.foldl (fun taken t => takes taken t.answer) none

/-- What a handler is given of an entry. -/
def read (p : Platform Payload) (raw : String) : Option (String × Payload) :=
  (p.parse raw).map fun mutation => (mutation.type,mutation.payload)

def storeAnswers (s : System Payload) : Event (Task Payload) Outside → Bool
  | .proceed c outcome => match s.pending c with
    | some .shift | some (.unshift _) | some .length | some (.push _) => outcome = .ok
    | _ => true
  | _ => true

/-- A handler is registered for what the task buffers. -/
def typeHandled (p : Platform Payload) : Event (Task Payload) Outside → Bool
  | .start _ (.bufferMutation type _) | .start _ (.request type _) => p.handles type
  | _ => true

/-- The mutations that were buffered are those that were applied, the one that is taken, and the buffer. -/
structure InOrder (p : Platform Payload) (past : List (Step Payload)) (s : System Payload) : Prop where
  readable : ∀ raw ∈ (taken past).toList ++ s.world.buffer, p.accepts raw = true
  held : ∀ raw, taken past = some raw ↔ ∃ c, s.places (after p) .outside c = some (.holding raw)
  ordered : (pushed past).map (read p) =
    (applied past).map some ++ ((taken past).toList ++ s.world.buffer).map (read p)

/-- The query touches neither the buffer nor what was taken from it. -/
def Query.isQuiet : Query Payload → Bool
  | .push _ => false
  | .shift => false
  | .handle _ _ => false
  | .unshift _ => false
  | _ => true

theorem exec_quiet (quiet : q.isQuiet = true) : (exec p w q).2.buffer = w.buffer := by
  cases q with
  | push raw => cases quiet
  | shift => cases quiet
  | handle type payload => cases quiet
  | unshift raw => cases quiet
  | probeFailed message =>
    simp only [exec,World.probeFailed]
    split <;> rfl
  | lagMeasured lagMs =>
    simp only [exec,World.lagMeasured]
    split
    · rfl
    · split <;> rfl
  | _ => rfl

theorem respond_quiet (quiet : q.isQuiet = true) (outcome : Outcome) :
    (respond (exec p) w q outcome).2.buffer = w.buffer := by
  cases outcome with
  | failed message => rfl
  | ok => exact exec_quiet quiet
  | lost message => exact exec_quiet quiet

theorem quiet_holding {place : Place} (quiet : q.isQuiet = true) (allows : allowed p may place q)
    (answer : Except String (Value Payload q)) (raw : String) :
    place ≠ .holding raw ∧ after p place q answer ≠ .holding raw := by
  have free : place ≠ .holding raw := by
    rintro rfl
    cases q with
    | handle type payload => cases quiet
    | unshift other => cases quiet
    | _ => exact allows
  refine ⟨free,?_⟩
  cases q with
  | push other => exact free
  | shift => cases quiet
  | handle type payload => cases quiet
  | unshift other => cases quiet
  | endReplay => rintro ⟨⟩
  | recovered =>
    cases place with
    | replaying => rintro ⟨⟩
    | _ => exact free
  | probeSucceeded =>
    match answer with
    | .error e => exact free
    | .ok false => exact free
    | .ok true =>
      cases place with
      | outside => rintro ⟨⟩
      | _ => exact free
  | _ => exact free

theorem pushed_append (past : List (Step Payload)) (t : Step Payload) :
    pushed (past ++ [t]) = pushed past ++ (pushOf t.answer).toList := by
  rw [pushed,List.filterMap_append,← pushed]
  cases found : pushOf t.answer <;> simp [found]

theorem applied_append (past : List (Step Payload)) (t : Step Payload) :
    applied (past ++ [t]) = applied past ++ (applyOf t.answer).toList := by
  rw [applied,List.filterMap_append,← applied]
  cases found : applyOf t.answer <;> simp [found]

theorem taken_append (past : List (Step Payload)) (t : Step Payload) : taken (past ++ [t]) = takes (taken past) t.answer := by
  rw [taken,List.foldl_append]
  rfl

variable {past : List (Step Payload)}

theorem inOrder_silent {t : Step Payload} (order : InOrder p past s) (pushes : pushOf t.answer = none)
    (applies : applyOf t.answer = none) (takesNone : takes (taken past) t.answer = taken past) {next : System Payload}
    (buffer : next.world.buffer = s.world.buffer)
    (held : ∀ raw, (∃ c, next.places (after p) .outside c = some (.holding raw)) ↔ ∃ c, s.places (after p) .outside c =
      some (.holding raw)) :
    InOrder p (past ++ [t]) next := by
  refine ⟨?_,fun raw => ?_,?_⟩
  · rw [taken_append,takesNone,buffer]
    exact order.readable
  · rw [taken_append,takesNone,held]
    exact order.held raw
  · rw [pushed_append,applied_append,taken_append,takesNone,buffer,pushes,applies]
    simpa using order.ordered

theorem quiet_records (quiet : q.isQuiet = true) (answer : Except String (Value Payload q)) (taken : Option String) :
    pushOf (some ⟨q,answer⟩) = none ∧ applyOf (some ⟨q,answer⟩) = none ∧ takes taken (some ⟨q,answer⟩) = taken := by
  cases q with
  | push raw => cases quiet
  | shift => cases quiet
  | handle type payload => cases quiet
  | unshift raw => cases quiet
  | _ => exact ⟨rfl,rfl,rfl⟩

variable {c : Nat}

theorem held_update {f : Nat → Option Place} {now : Place} (free : ∀ raw, f c ≠ some (.holding raw) ∧ now ≠ .holding raw)
    (raw : String) : (∃ d, Function.update f c (some now) d = some (.holding raw)) ↔ ∃ d, f d = some (.holding raw) := by
  constructor
  · rintro ⟨d,holds⟩
    rw [Function.update_apply] at holds
    split at holds
    · exact absurd (Option.some.inj holds) (free raw).2
    · exact ⟨d,holds⟩
  · rintro ⟨d,holds⟩
    refine ⟨d,?_⟩
    rw [Function.update_apply,if_neg]
    · exact holds
    · rintro rfl
      exact (free raw).1 holds

theorem held_iff (exclusive : Exclusive p s) {place : Place} (atPlace : s.places (after p) .outside c = some place)
    (inside : place ≠ .outside) (raw : String) :
    (∃ d, s.places (after p) .outside d = some (.holding raw)) ↔ place = .holding raw := by
  constructor
  · rintro ⟨d,holds⟩
    obtain rfl := exclusive.apart d c _ place holds atPlace (by rintro ⟨⟩) inside
    exact Option.some.inj (atPlace.symm.trans holds)
  · rintro rfl
    exact ⟨c,atPlace⟩

theorem inOrder_moves {next : System Payload} (exclusive : Exclusive p s) (exclusiveNext : Exclusive p next)
    (order : InOrder p past s) {place : Place} (atPlace : s.places (after p) .outside c = some place)
    (loud : q.isQuiet = false) (allows : allowed p (fun raw => p.accepts raw = true) place q) {outcome : Outcome}
    (stored : (∀ type payload, q ≠ .handle type payload) → outcome = .ok) {t : Step Payload}
    (answer : t.answer = some ⟨q,(respond (exec p) s.world q outcome).1⟩)
    (world : next.world = (respond (exec p) s.world q outcome).2)
    (places : next.places (after p) .outside =
      Function.update (s.places (after p) .outside) c (some (after p place q (respond (exec p) s.world q outcome).1))) :
    InOrder p (past ++ [t]) next := by
  have now : next.places (after p) .outside c = some (after p place q (respond (exec p) s.world q outcome).1) := by
    rw [places,Function.update_self]
  have holder : place ≠ .outside → ∀ raw, taken past = some raw ↔ place = .holding raw :=
    fun inside raw => (order.held raw).trans (held_iff exclusive atPlace inside raw)
  cases q with
  | push raw =>
    obtain rfl := stored (by rintro _ _ ⟨⟩)
    cases place with
    | replaying => exact allows.elim
    | holding other => exact allows.elim
    | closing => exact allows.elim
    | outside =>
      have buffer : next.world.buffer = s.world.buffer ++ [raw] := by rw [world]; rfl
      have kept : takes (taken past) t.answer = taken past := by rw [answer]; rfl
      refine ⟨fun other listed => ?_,fun other => ?_,?_⟩
      · rw [taken_append,kept,buffer,← List.append_assoc,List.mem_append,List.mem_singleton] at listed
        rcases listed with old | rfl
        · exact order.readable other old
        · exact allows
      · rw [taken_append,kept,places]
        refine (order.held other).trans (held_update (fun raw => ⟨fun holds => ?_,by rintro ⟨⟩⟩) other).symm
        cases atPlace.symm.trans holds
      · have recorded : pushOf t.answer = some raw := by rw [answer]; rfl
        have silent : applyOf t.answer = none := by rw [answer]; rfl
        rw [pushed_append,applied_append,taken_append,recorded,silent,kept,buffer]
        simp [order.ordered]
  | shift =>
    obtain rfl := stored (by rintro _ _ ⟨⟩)
    cases place with
    | outside => exact allows.elim
    | holding other => exact allows.elim
    | closing => exact allows.elim
    | replaying =>
      have free : taken past = none := by
        refine Option.eq_none_iff_forall_ne_some.mpr fun raw holds => ?_
        cases (holder (by rintro ⟨⟩) raw).mp holds
      have silent : pushOf t.answer = none ∧ applyOf t.answer = none := by rw [answer]; exact ⟨rfl,rfl⟩
      have took : takes (taken past) t.answer = s.world.buffer.head? := by rw [answer]; rfl
      have buffer : next.world.buffer = s.world.buffer.tail := by rw [world]; rfl
      have parts : s.world.buffer.head?.toList ++ s.world.buffer.tail = s.world.buffer := by
        cases s.world.buffer <;> rfl
      refine ⟨fun other listed => ?_,fun other => ?_,?_⟩
      · rw [taken_append,took,buffer,parts] at listed
        exact order.readable other (List.mem_append_right _ listed)
      · rw [taken_append,took]
        have place' : after p .replaying (.shift : Query Payload) (.ok s.world.buffer.head?) =
            s.world.buffer.head?.elim .replaying .holding := by
          cases list : s.world.buffer with
          | nil => rfl
          | cons raw rest =>
            have accepted := order.readable raw (by rw [list]; exact List.mem_append_right _ (List.mem_cons_self ..))
            exact if_pos accepted
        have inside : after p .replaying (.shift : Query Payload) (.ok s.world.buffer.head?) ≠ .outside := by
          rw [place']
          cases s.world.buffer.head? <;> rintro ⟨⟩
        rw [held_iff exclusiveNext now inside other]
        change _ ↔ after p .replaying (.shift : Query Payload) (.ok s.world.buffer.head?) = _
        rw [place']
        cases s.world.buffer.head? <;> simp
      · have same := order.ordered
        rw [free,Option.toList_none,List.nil_append] at same
        rw [pushed_append,applied_append,taken_append,took,silent.1,silent.2,buffer,parts]
        simpa using same
  | handle type payload =>
    cases place with
    | outside => exact allows.elim
    | replaying => exact allows.elim
    | closing => exact allows.elim
    | holding raw =>
      have holds : taken past = some raw := (holder (by rintro ⟨⟩) raw).mpr rfl
      obtain ⟨mutation,parsed,rfl,rfl⟩ := allows
      have buffer : next.world.buffer = s.world.buffer := by
        rw [world]
        cases outcome <;> rfl
      have fails : ∀ message, (respond (exec p) s.world (.handle mutation.type mutation.payload) outcome).1 = .error message →
          InOrder p (past ++ [t]) next := by
        intro message refused
        rw [refused] at answer now
        refine inOrder_silent order (by rw [answer]; rfl) (by rw [answer]; rfl) (by rw [answer]; rfl) buffer fun other => ?_
        rw [held_iff exclusiveNext now (by rintro ⟨⟩) other,held_iff exclusive atPlace (by rintro ⟨⟩) other]
        rfl
      cases outcome with
      | failed message => exact fails message rfl
      | lost message => exact fails message rfl
      | ok =>
        have gone : takes (taken past) t.answer = none := by rw [answer]; rfl
        refine ⟨fun other listed => ?_,fun other => ?_,?_⟩
        · rw [taken_append,gone,buffer] at listed
          exact order.readable other (List.mem_append_right _ listed)
        · rw [taken_append,gone,held_iff exclusiveNext now (by rintro ⟨⟩) other]
          change none = some other ↔ Place.replaying = .holding other
          simp
        · have silent : pushOf t.answer = none := by rw [answer]; rfl
          have recorded : applyOf t.answer = some (mutation.type,mutation.payload) := by rw [answer]; rfl
          have reads : read p raw = some (mutation.type,mutation.payload) := by rw [read,parsed]; rfl
          have same := order.ordered
          rw [pushed_append,applied_append,taken_append,silent,recorded,gone,buffer]
          rw [holds] at same
          simpa [reads] using same
  | unshift other =>
    obtain rfl := stored (by rintro _ _ ⟨⟩)
    cases place with
    | outside => exact allows.elim
    | replaying => exact allows.elim
    | closing => exact allows.elim
    | holding raw =>
      obtain rfl : other = raw := allows
      have holds : taken past = some other := (holder (by rintro ⟨⟩) other).mpr rfl
      have buffer : next.world.buffer = other :: s.world.buffer := by rw [world]; rfl
      have gone : takes (taken past) t.answer = none := by rw [answer]; rfl
      refine ⟨fun raw listed => ?_,fun raw => ?_,?_⟩
      · rw [taken_append,gone,buffer] at listed
        exact order.readable raw (by rw [holds]; exact listed)
      · rw [taken_append,gone,held_iff exclusiveNext now (by rintro ⟨⟩) raw]
        change none = some raw ↔ Place.closing = .holding raw
        simp
      · have silent : pushOf t.answer = none ∧ applyOf t.answer = none := by rw [answer]; exact ⟨rfl,rfl⟩
        have same := order.ordered
        rw [pushed_append,applied_append,taken_append,silent.1,silent.2,gone,buffer]
        rw [holds] at same
        simpa using same
  | _ => cases loud

theorem inOrder_step (standing : Standing p (fun raw => p.accepts raw = true) s) (exclusive : Exclusive p s)
    {e : Event (Task Payload) Outside} (answers : storeAnswers s e = true) (order : InOrder p past s) :
    InOrder p (past ++ [transition (step p) s e]) (step p s e).2 := by
  have next := exclusive_step standing exclusive e
  rcases step_moves standing e with same | ⟨c,home,none,world,places⟩ |
    ⟨c,asked,outcome,place,q,rfl,isOutcome,pending,atPlace,allows,answer,world,places⟩ | ⟨o,_,none,world,places⟩
  · have answer : (transition (step p) s e).answer = none := congrArg Prod.fst same
    refine inOrder_silent order (by rw [answer]; rfl) (by rw [answer]; rfl) (by rw [answer]; rfl) (by rw [same]) fun raw => ?_
    rw [same]
  · have answer : (transition (step p) s e).answer = .none := none
    refine inOrder_silent order (by rw [answer]; rfl) (by rw [answer]; rfl) (by rw [answer]; rfl) (by rw [world]) fun raw => ?_
    rw [places]
    refine held_update (fun raw => ⟨fun holds => ?_,by rintro ⟨⟩⟩) raw
    cases home _ holds
  · have answerIs : (transition (step p) s (.proceed c asked)).answer = some ⟨q,(respond (exec p) s.world q outcome).1⟩ := answer
    by_cases quiet : q.isQuiet = true
    · obtain ⟨pushes,applies,takesNone⟩ := quiet_records quiet (respond (exec p) s.world q outcome).1 (taken past)
      refine inOrder_silent order (by rw [answerIs,pushes]) (by rw [answerIs,applies]) (by rw [answerIs,takesNone])
        (by rw [world,respond_quiet quiet]) fun raw => ?_
      rw [places]
      refine held_update (fun raw => ?_) raw
      have free := quiet_holding quiet allows (respond (exec p) s.world q outcome).1 raw
      exact ⟨fun holds => free.1 (Option.some.inj (atPlace.symm.trans holds)),free.2⟩
    · have stored : (∀ type payload, q ≠ .handle type payload) → outcome = .ok := by
        intro other
        cases q with
        | push raw => simpa [isOutcome,Query.isMemory,Query.isRemote,storeAnswers,pending] using answers
        | shift => simpa [isOutcome,Query.isMemory,Query.isRemote,storeAnswers,pending] using answers
        | unshift raw => simpa [isOutcome,Query.isMemory,Query.isRemote,storeAnswers,pending] using answers
        | handle type payload => exact absurd rfl (other type payload)
        | _ => exact absurd rfl quiet
      exact inOrder_moves exclusive next order atPlace (Bool.eq_false_iff.mpr quiet) allows stored answerIs world places
  · have answer : (transition (step p) s e).answer = .none := none
    refine inOrder_silent order (by rw [answer]; rfl) (by rw [answer]; rfl) (by rw [answer]; rfl)
      (by rw [world]; cases o <;> rfl) fun raw => ?_
    rw [places]

theorem holding_pending (standing : Standing p may s) {raw : String}
    (holds : s.places (after p) .outside c = some (.holding raw)) :
    ∃ q, s.pending c = some q ∧ (q = .unshift raw ∨ ∃ type payload, q = .handle type payload ∧ read p raw = some (type,payload)) := by
  obtain ⟨t,running,atPlace⟩ := Option.map_eq_some_iff.mp holds
  have follows := standing c t running
  rw [atPlace] at follows
  obtain ⟨made,rest⟩ := t
  cases rest with
  | returned a => cases follows
  | call q next =>
    refine ⟨q,pending_of_at ⟨made,next,running⟩,?_⟩
    have allows := follows.1
    cases q with
    | unshift other =>
      obtain rfl : other = raw := allows
      exact .inl rfl
    | handle type payload =>
      obtain ⟨mutation,parsed,rfl,rfl⟩ := allows
      exact .inr ⟨_,_,rfl,by rw [read,parsed]; rfl⟩
    | _ => exact allows.elim

theorem pushes_of_typeHandled {task : Task Payload} (handled : typeHandled p (.start c task : Event _ Outside) = true) :
    task.Pushes p fun raw => p.accepts raw = true := by
  have accepted : ∀ {type : String} {payload : Payload}, p.handles type = true →
      ∀ id bufferedAt raw, p.stringify ⟨id,type,payload,bufferedAt⟩ = .ok raw → p.accepts raw = true := by
    intro type payload handles id bufferedAt raw text
    obtain ⟨read,parsed⟩ := p.parse_stringify _ raw text
    simp [Platform.accepts,parsed,handles]
  cases task with
  | check => trivial
  | lagCheck => trivial
  | bufferMutation type payload => exact accepted handled
  | request type payload => exact accepted handled

theorem run_inOrder (empty : w.buffer = []) (events : List (Event (Task Payload) Outside))
    (answers : ∀ t ∈ history (step p) (System.start w) events, storeAnswers t.before t.input = true)
    (handled : ∀ e ∈ events, typeHandled p e = true) :
    Standing p (fun raw => p.accepts raw = true) (run (step p) (System.start w) events) ∧
      Exclusive p (run (step p) (System.start w) events) ∧
      InOrder p (history (step p) (System.start w) events) (run (step p) (System.start w) events) := by
  induction events using List.reverseRecOn with
  | nil =>
    refine ⟨placed_start w,⟨?_,?_⟩,⟨?_,?_,?_⟩⟩
    · rintro c place ⟨⟩
    · rintro c d place place' ⟨⟩
    · intro raw listed
      rw [run_nil] at listed
      change raw ∈ w.buffer at listed
      rw [empty] at listed
      cases listed
    · intro raw
      constructor
      · rintro ⟨⟩
      · rintro ⟨c,⟨⟩⟩
    · change [] = [] ++ (([] : List String) ++ w.buffer).map (read p)
      rw [empty]
      rfl
  | append_singleton events e ih =>
    rw [history_append] at answers ⊢
    obtain ⟨standing,exclusive,order⟩ := ih (fun t listed => answers t (List.mem_append_left _ listed))
      fun e listed => handled e (List.mem_append_left _ listed)
    have stored := answers _ (List.mem_append_right _ (List.mem_singleton_self _))
    rw [run_append]
    refine ⟨process_placed standing fun c task isStart => ?_,exclusive_step standing exclusive e,
      inOrder_step standing exclusive stored order⟩
    have typed := handled e (List.mem_append_right _ (List.mem_singleton_self _))
    rw [isStart] at typed
    exact follows_task (pushes_of_typeHandled typed)

/-- Where the store answers and every buffered type has a handler, handlers come through with the mutations in the order
    in which they were buffered, and the others are, in order, the one that a check has taken out to apply it or to put
    it back, and the contents of the buffer. -/
theorem buffered_in_order (p : Platform Payload) (w : World) (empty : w.buffer = []) (events : List (Event (Task Payload) Outside))
    (answers : ∀ t ∈ history (step p) (System.start w) events, storeAnswers t.before t.input = true)
    (handled : ∀ e ∈ events, typeHandled p e = true) :
    (pushed (history (step p) (System.start w) events)).map (read p) =
      (applied (history (step p) (System.start w) events)).map some ++
        ((taken (history (step p) (System.start w) events)).toList ++
          (run (step p) (System.start w) events).world.buffer).map (read p) ∧
    ∀ raw, taken (history (step p) (System.start w) events) = some raw →
      ∃ c q, (run (step p) (System.start w) events).pending c = some q ∧
        (q = .unshift raw ∨ ∃ type payload, q = .handle type payload ∧ read p raw = some (type,payload)) := by
  obtain ⟨standing,_,order⟩ := run_inOrder empty events answers handled
  refine ⟨order.ordered,fun raw holds => ?_⟩
  obtain ⟨c,holding⟩ := (order.held raw).mp holds
  exact ⟨c,holding_pending standing holding⟩

/-- What is buffered and not yet applied is in the buffer, in order. -/
def Keeps (p : Platform Payload) (past : List (Step Payload)) (s : System Payload) : Prop :=
  (pushed past).map (read p) = (applied past).map some ++ s.world.buffer.map (read p)

/-- No handler works on a mutation. -/
def Rests (s : System Payload) : Prop := ∀ c type payload, s.pending c ≠ some (.handle type payload)

def textOf (members : List (String × JsonTexts.Json)) (key : String) : Option String :=
  match JsonTexts.lookup members key with
  | some (.string text) => some text
  | _ => none

def parseMutation (raw : String) : Option (BufferedMutation String) :=
  match JsonTexts.parse (fun _ => .finite 0) raw with
  | some (.object members) => do
    return ⟨← textOf members "id",← textOf members "type",← textOf members "payload",← textOf members "bufferedAt"⟩
  | _ => none

def stringifyMutation (mutation : BufferedMutation String) : String :=
  JsonTexts.stringify [("id",mutation.id),("type",mutation.type),("payload",mutation.payload),("bufferedAt",mutation.bufferedAt)]

theorem parse_stringifyMutation (mutation : BufferedMutation String) : parseMutation (stringifyMutation mutation) = some mutation := by
  rw [parseMutation,stringifyMutation,JsonTexts.parse_stringify (List.cons_ne_nil _ _)]
  rfl

/-- One failed probe degrades, one probe that comes through recovers. -/
def samplePlatform : Platform String where
  config := ⟨1,1,2⟩
  lag := ⟨1000,1⟩
  handles type := type = "alert.create"
  random _ := "k3j9x0ab"
  stringify mutation := .ok (stringifyMutation mutation)
  parse := parseMutation
  parse_stringify mutation raw text := by
    obtain rfl := Except.ok.inj text
    exact ⟨mutation.payload,parse_stringifyMutation mutation⟩
  rounds := 4

def sampleWorld : World := ⟨⟨0,DateTexts.zero_inRange⟩,.new,.new,.PRIMARY,[],0,0⟩
def calls (c n : Nat) : List (Event (Task String) Outside) := List.replicate n (.proceed c .ok)

/-- A mutation is buffered, and the probe of a check fails. -/
def degraded : List (Event (Task String) Outside) :=
  .start 0 (.bufferMutation "alert.create" "G") :: calls 0 3 ++
    .start 0 .check :: calls 0 1 ++ .proceed 0 (.failed "timeout") :: calls 0 3

/-- The next check replays up to the call of the handler. -/
def replayed : List (Event (Task String) Outside) := degraded ++ .start 0 .check :: calls 0 4

def sampleEntry : String := stringifyMutation ⟨"0-k3j9x0ab","alert.create","G","1970-01-01T00:00:00.000Z"⟩

theorem replayed_answers :
    (∀ t ∈ history (step samplePlatform) (System.start sampleWorld) (replayed ++ [.proceed 0 (.failed "503")]),
      storeAnswers t.before t.input = true) ∧
    ∀ e ∈ replayed ++ [.proceed 0 (.failed "503")], typeHandled samplePlatform e = true := by decide +kernel

theorem buffered_in_order_replayed :
    (pushed (history (step samplePlatform) (System.start sampleWorld) (replayed ++ [.proceed 0 (.failed "503")]))).map
        (read samplePlatform) =
      (applied (history (step samplePlatform) (System.start sampleWorld) (replayed ++ [.proceed 0 (.failed "503")]))).map some ++
        ((taken (history (step samplePlatform) (System.start sampleWorld) (replayed ++ [.proceed 0 (.failed "503")]))).toList ++
          (run (step samplePlatform) (System.start sampleWorld) (replayed ++ [.proceed 0 (.failed "503")])).world.buffer).map
            (read samplePlatform) :=
  (buffered_in_order samplePlatform sampleWorld rfl (replayed ++ [.proceed 0 (.failed "503")]) replayed_answers.1
    replayed_answers.2).1

/-- The handler has failed, and its mutation is not yet put back. -/
theorem taken_out_of_buffer :
    ¬ ∀ events, (∀ t ∈ history (step samplePlatform) (System.start sampleWorld) events, storeAnswers t.before t.input = true) →
      (∀ e ∈ events, typeHandled samplePlatform e = true) →
      Rests (run (step samplePlatform) (System.start sampleWorld) events) →
        Keeps samplePlatform (history (step samplePlatform) (System.start sampleWorld) events)
          (run (step samplePlatform) (System.start sampleWorld) events) := by
  intro keeps
  have rests : Rests (run (step samplePlatform) (System.start sampleWorld) (replayed ++ [.proceed 0 (.failed "503")])) := by
    intro c type payload
    by_cases first : c = 0
    · rw [first,show (run (step samplePlatform) (System.start sampleWorld)
        (replayed ++ [.proceed 0 (.failed "503")])).pending 0 = some (.unshift sampleEntry) by decide +kernel]
      rintro ⟨⟩
    · have others : ∀ e ∈ replayed ++ [.proceed 0 (.failed "503")], e.number ≠ some c := by
        have firsts : ∀ e ∈ replayed ++ [.proceed 0 (.failed "503")], e.number = some 0 := by decide
        intro e listed same
        exact first (Option.some.inj (same.symm.trans (firsts e listed)))
      have idle : (run (step samplePlatform) (System.start sampleWorld)
          (replayed ++ [.proceed 0 (.failed "503")])).threads c = none := process_run_others others
      rw [System.pending,idle]
      rintro ⟨⟩
  have kept := keeps _ replayed_answers.1 replayed_answers.2 rests
  exact absurd kept (by
    rw [Keeps]
    decide +kernel)

end StellarAlerts.DbFailover
