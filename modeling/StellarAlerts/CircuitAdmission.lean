import StellarAlerts.CircuitBreaker

/-!
Which calls of `execute` the circuit admits. No call is admitted while the circuit cools
down, and one at most from a turn to HALF_OPEN to the outcome that ends it, exactly in
the runs without a write behind a stale read, a second canary or a failed read
(`admissions_kept_iff`).
-/
namespace StellarAlerts.CircuitAdmission
open Histories
open Interleaving hiding step
open RemoteCalls
open CircuitBreaker hiding step

/-- Where a call of `execute` stands. -/
inductive Place where
  | reading
  | dating
  | timing (openedAt : Nat)
  | probing
  | calling
  | recording
  | refused
deriving DecidableEq, Repr

def allowed : Place → Query → Prop
  | .reading, .getState => True
  | .dating, .getOpenedAt => True
  | .timing _, .dateNow => True
  | .probing, .setState .HALF_OPEN => True
  | .calling, .fn => True
  | .recording, .fn => False
  | .recording, _ => True
  | _, _ => False

section Places
variable (b : RedisCircuitBreaker)

/-- Anything but OPEN lets the call in, an error too. -/
def afterState : Except String (Option CircuitState) → Place
  | .ok (some .OPEN) => .dating
  | _ => .calling

def afterOpenedAt : Except String (Option Nat) → Place
  | .ok (some openedAt) => .timing openedAt
  | .ok none => .refused
  | .error _ => .calling

def afterNow (openedAt : Nat) : Except String Nat → Place
  | .ok now => if (b.cooldownSeconds : Int) ≤ elapsedSeconds now openedAt then .probing else .refused
  | .error _ => .calling

def after : Place → (q : Query) → Except String (Value q) → Place
  | .reading, .getState, answer => afterState answer
  | .dating, .getOpenedAt, answer => afterOpenedAt answer
  | .timing openedAt, .dateNow, answer => afterNow b openedAt answer
  | .probing, _, _ => .calling
  | .calling, _, _ => .recording
  | place, _, _ => place

def Ended {α : Type} (_ : α) (place : Place) : Prop := place = .recording ∨ place = .refused

variable {b}

theorem getState_follows {post : Except String CircuitState → Place → Prop} (closed : post (.ok .CLOSED) .calling)
    (halfOpen : post (.ok .HALF_OPEN) .calling) (isOpen : post (.ok .OPEN) .refused) :
    Follows allowed (after b) post .reading (getState b).run := by
  refine follows_tryCatch.mpr (follows_bindCode.mpr ⟨trivial,fun state => ?_⟩)
  rcases state with e | _ | state
  · exact closed
  · exact closed
  · cases state with
    | CLOSED => exact closed
    | HALF_OPEN => exact halfOpen
    | OPEN =>
      refine follows_bindCode.mpr ⟨trivial,fun openedAtStr => ?_⟩
      rcases openedAtStr with e | _ | openedAt
      · exact closed
      · exact isOpen
      · refine follows_bindCode.mpr ⟨trivial,fun now => ?_⟩
        rcases now with e | now
        · exact closed
        · by_cases cooled : (b.cooldownSeconds : Int) ≤ elapsedSeconds now openedAt
          · have place : afterNow b openedAt (.ok now) = .probing := if_pos cooled
            show Follows allowed (after b) _ (afterNow b openedAt (.ok now))
              (ExceptT.run (if (b.cooldownSeconds : Int) ≤ elapsedSeconds now openedAt then _ else _))
            rw [place,if_pos cooled]
            refine follows_bindCode.mpr ⟨trivial,fun written => ?_⟩
            cases written with
            | ok _ => exact halfOpen
            | error e => exact closed
          · have place : afterNow b openedAt (.ok now) = .refused := if_neg cooled
            show Follows allowed (after b) _ (afterNow b openedAt (.ok now))
              (ExceptT.run (if (b.cooldownSeconds : Int) ≤ elapsedSeconds now openedAt then _ else _))
            rw [place,if_neg cooled]
            exact isOpen

theorem stays_recording {q : Query} (other : q ≠ .fn) : Stays allowed (after b) .recording q := by
  refine ⟨?_,fun _ => rfl⟩
  cases q with
  | fn => exact other rfl
  | _ => trivial

theorem steady_recording : Steady allowed (after b) .recording where
  stays q plain := stays_recording fun isFn => by rw [isFn] at plain; exact plain
  trips := returns_bind (stays_recording nofun) fun _ => ⟨trivial,fun _ => ⟨trivial,fun _ => rfl⟩⟩

theorem protect_follows : Follows allowed (after b) (fun _ place => place = .recording) .calling (protect b).run := by
  refine follows_tryCatch.mpr (follows_bindCode.mpr ⟨trivial,fun answer => ?_⟩)
  have failing : ∀ err : String, Returns allowed (after b) .recording (recordFailure b >>= fun _ => throw err : Code Unit) :=
    fun err => returns_bind (recordFailure_returns steady_recording b) fun _ => returns_throw err
  cases answer with
  | error err => exact failing err
  | ok _ =>
    show Follows allowed (after b) _ .recording (recordSuccess b).run
    refine follows_mono ?_ (recordSuccess_returns steady_recording b)
    rintro (err | _) place rfl
    · exact failing err
    · exact rfl

theorem execute_follows (endpointId : String) : Follows allowed (after b) Ended .reading (execute b endpointId).run := by
  have calls : Follows allowed (after b) Ended .calling (protect b).run :=
    follows_mono (fun _ _ recorded => .inl recorded) protect_follows
  refine follows_bindCode.mpr (follows_bindCode.mpr (getState_follows calls calls ?_))
  exact .inr rfl

theorem program_follows (endpointId : String) :
    Follows allowed (after b) Ended .reading (Call.program b (.execute endpointId)) :=
  follows_map.mpr (follows_mono (fun _ _ ended => ended) (execute_follows endpointId))

end Places

/-- Calls of `execute` alone, by the endpoint that their errors name. -/
def step (b : RedisCircuitBreaker) : System → Input String Nat → Option (Answered Query Value) × System :=
  Interleaving.step exec (fun endpointId => Call.program b (.execute endpointId)) elapse

abbrev Move := Transition System (Input String Nat) (Option (Answered Query Value))

/-- The step brings its call before the protected function. -/
def admits (t : Move) : Bool :=
  match t.input with
  | .proceed c _ => t.after.pending c == some .fn
  | _ => false

def TurnsHalfOpen (t : Move) : Prop := t.before.world.state ≠ some .HALF_OPEN ∧ t.after.world.state = some .HALF_OPEN

/-- The circuit has turned half open and still is, and a call has been admitted since. -/
def Probed (past : List Move) : Prop :=
  ∃ earlier turn since, past = earlier ++ turn :: since ∧ TurnsHalfOpen turn ∧
    (∀ t ∈ since, t.after.world.state = some .HALF_OPEN) ∧ ∃ t ∈ turn :: since, admits t

section Admissions
variable (b : RedisCircuitBreaker)

/-- The circuit is OPEN, and its cooldown has not elapsed. -/
def CoolingDown (w : World) : Prop :=
  w.state = some .OPEN ∧ ∀ openedAt, w.openedAt = some openedAt → elapsedSeconds w.now openedAt < b.cooldownSeconds

/-- No call is admitted while the circuit cools down, and at most one from a turn to
    HALF_OPEN on for as long as the circuit stays there. -/
def Kept (transitions : List Move) : Prop :=
  (∀ t ∈ transitions, admits t → ¬ CoolingDown b t.before.world) ∧
  ∀ earlier turn since later, transitions = earlier ++ turn :: since ++ later → TurnsHalfOpen turn →
    (∀ t ∈ since, t.after.world.state = some .HALF_OPEN) → (turn :: since).countP admits ≤ 1

/-- The circuit neither cools down nor has its canary out. -/
def Free (past : List Move) (w : World) : Prop := ¬ CoolingDown b w ∧ ¬ Probed past

/-- A check reads no HALF_OPEN whose canary is out. It fails only where the circuit is
    free, and only there its write of HALF_OPEN is sent. -/
def Meets (past : List Move) (s : System) : Input String Nat → Prop
  | .proceed c outcome =>
    match s.places (after b) .reading c, outcome with
    | some .reading, .ok => s.world.state = some .HALF_OPEN → ¬ Probed past
    | some .dating, .ok | some (.timing _), .ok => True
    | some .reading, _ | some .dating, _ | some (.timing _), _ | some .probing, _ => Free b past s.world
    | _, _ => True
  | _ => True

variable {b}

theorem not_coolingDown {w : World} (other : w.state ≠ some .OPEN) : ¬ CoolingDown b w := fun cooling => other cooling.1
theorem afterOpenedAt_ok (openedAtStr : Option Nat) : afterOpenedAt (.ok openedAtStr) ≠ .calling := by
  cases openedAtStr <;> nofun

theorem afterNow_ok (openedAt now : Nat) : afterNow b openedAt (.ok now) ≠ .calling := by
  by_cases cooled : (b.cooldownSeconds : Int) ≤ elapsedSeconds now openedAt
  · simp [afterNow,cooled]
  · simp [afterNow,cooled]

variable {s : System}

theorem meets_iff {past : List Move} (stays : Probed past → s.world.state = some .HALF_OPEN) {c : Nat} {outcome : Outcome}
    {place : Place} {q : Query} (atPlace : s.places (after b) .reading c = some place) (may : allowed place q) :
    Meets b past s (.proceed c outcome) ↔
      (after b place q (respond exec s.world q outcome).1 = .calling → Free b past s.world) := by
  simp only [Meets,atPlace]
  cases place with
  | reading =>
    cases q with
    | getState =>
      cases outcome with
      | ok =>
        show (s.world.state = some .HALF_OPEN → ¬ Probed past) ↔ (afterState (.ok s.world.state) = .calling → _)
        constructor
        · intro unprobed calling
          have notOpen : s.world.state ≠ some .OPEN := by
            intro isOpen
            rw [isOpen] at calling
            cases calling
          exact ⟨not_coolingDown notOpen,fun probed => unprobed (stays probed) probed⟩
        · intro free halfOpen
          exact (free (by rw [halfOpen]; rfl)).2
      | failed message => exact ⟨fun free _ => free,fun free => free rfl⟩
      | lost message => exact ⟨fun free _ => free,fun free => free rfl⟩
    | _ => exact may.elim
  | dating =>
    cases q with
    | getOpenedAt =>
      cases outcome with
      | ok =>
        exact iff_of_true trivial fun calling => absurd calling (afterOpenedAt_ok s.world.openedAt)
      | failed message => exact ⟨fun free _ => free,fun free => free rfl⟩
      | lost message => exact ⟨fun free _ => free,fun free => free rfl⟩
    | _ => exact may.elim
  | timing openedAt =>
    cases q with
    | dateNow =>
      cases outcome with
      | ok =>
        exact iff_of_true trivial fun calling => absurd calling (afterNow_ok openedAt s.world.now)
      | failed message => exact ⟨fun free _ => free,fun free => free rfl⟩
      | lost message => exact ⟨fun free _ => free,fun free => free rfl⟩
    | _ => exact may.elim
  | probing => exact ⟨fun free _ => free,fun free => free rfl⟩
  | calling => exact iff_of_true trivial nofun
  | recording => exact iff_of_true trivial nofun
  | refused => exact may.elim

theorem pending_fn_iff (placed : Placed allowed (after b) Ended .reading s) (c : Nat) :
    s.pending c = some .fn ↔ s.places (after b) .reading c = some .calling := by
  constructor
  · intro stands
    obtain ⟨made,next,running⟩ := at_of_pending stands
    have may := (placed c _ running).1
    rw [System.places,running,Option.map_some,Option.some.injEq]
    revert may
    cases Thread.place (after b) .reading ⟨made,.call .fn next⟩ with
    | calling => intro _; rfl
    | _ => exact False.elim
  · intro atPlace
    obtain ⟨⟨made,rest⟩,running,place⟩ := Option.map_eq_some_iff.mp atPlace
    have follows := placed c _ running
    rw [place] at follows
    cases rest with
    | returned a => rcases follows with ended | ended <;> cases ended
    | call q next =>
      have may := follows.1
      cases q with
      | fn => exact pending_of_at ⟨made,next,running⟩
      | _ => exact may.elim

theorem respond_calling {w : World} {place : Place} {q : Query} {outcome : Outcome} (may : allowed place q)
    (calling : after b place q (respond exec w q outcome).1 = .calling) (halfOpen : w.state = some .HALF_OPEN) :
    (respond exec w q outcome).2.state = some .HALF_OPEN := by
  cases place with
  | reading | dating | timing _ | probing =>
    cases q with
    | getState | getOpenedAt | dateNow => cases outcome <;> exact halfOpen
    | setState state =>
      cases state with
      | HALF_OPEN => cases outcome <;> first | rfl | exact halfOpen
      | _ => exact may.elim
    | _ => exact may.elim
  | calling | recording => cases calling
  | refused => exact may.elim

section
variable (placed : Placed allowed (after b) Ended .reading s)
include placed

theorem step_placed (i : Input String Nat) :
    Placed allowed (after b) Ended .reading (step b s i).2 := placed_step program_follows placed i

theorem step_meets_iff {past : List Move}
    (stays : Probed past → s.world.state = some .HALF_OPEN) (i : Input String Nat) :
    Meets b past s i ↔ (admits (transition (step b) s i) → Free b past s.world) := by
  cases i with
  | start c endpointId => exact iff_of_true trivial nofun
  | exit c => exact iff_of_true trivial nofun
  | outside ms => exact iff_of_true trivial nofun
  | proceed c outcome =>
    have next := step_placed placed (.proceed c outcome)
    rcases @placed_cases _ _ _ _ _ _ _ _ _ _ _ exec (fun endpointId => Call.program b (.execute endpointId)) elapse s placed
      (.proceed c outcome) with same | ⟨d,endpointId,isStart,_⟩ | ⟨d,made,place,q,isProceed,stands,atPlace,may,_,_,places⟩ |
      ⟨d,isExit,_⟩ | ⟨ms,isOutside,_⟩
    · have idle : s.pending c = none := by
        by_contra busy
        obtain ⟨q,stands⟩ := Option.ne_none_iff_exists'.mp busy
        obtain ⟨made,rest,running⟩ := at_of_pending stands
        simp [Interleaving.step,running] at same
      have notAdmits : ¬ admits (transition (step b) s (.proceed c outcome)) := by
        simp [admits,transition,step,same,idle]
      refine iff_of_true ?_ fun admitted => absurd admitted notAdmits
      have ended : ∀ place, s.places (after b) .reading c = some place → place = .recording ∨ place = .refused := by
        intro place atPlace
        obtain ⟨⟨made,rest⟩,running,rfl⟩ := Option.map_eq_some_iff.mp atPlace
        cases rest with
        | returned a => exact placed c _ running
        | call q next => simp [System.pending,running] at idle
      cases atPlace : s.places (after b) .reading c with
      | none => simp [Meets,atPlace]
      | some place => rcases ended place atPlace with rfl | rfl <;> simp [Meets,atPlace]
    · cases isStart
    · cases isProceed
      have admitted : admits (transition (step b) s (.proceed c outcome)) ↔
          after b place q (respond exec s.world q outcome).1 = .calling := by
        have stands' := pending_fn_iff next c
        rw [step,places,Function.update_self,Option.some.injEq] at stands'
        exact beq_iff_eq.trans stands'
      rw [admitted]
      exact meets_iff stays atPlace may
    · cases isExit
    · cases isOutside

theorem halfOpen_of_admits {i : Input String Nat}
    (admitted : admits (transition (step b) s i)) (halfOpen : s.world.state = some .HALF_OPEN) :
    (step b s i).2.world.state = some .HALF_OPEN := by
  have next := step_placed placed i
  rcases @placed_cases _ _ _ _ _ _ _ _ _ _ _ exec (fun endpointId => Call.program b (.execute endpointId)) elapse s placed i
    with same | ⟨c,endpointId,rfl,_⟩ | ⟨c,outcome,place,q,rfl,stands,atPlace,may,_,world,places⟩ | ⟨c,rfl,_⟩ | ⟨ms,rfl,_⟩
  · rw [step,same]
    exact halfOpen
  · cases admitted
  · have standing : (step b s (.proceed c outcome)).2.pending c = some .fn := beq_iff_eq.mp admitted
    have calling := (pending_fn_iff next c).mp standing
    rw [step,places,Function.update_self,Option.some.injEq] at calling
    rw [step,world]
    exact respond_calling may calling halfOpen
  · cases admitted
  · cases admitted

end

theorem halfOpen_of_probed {inputs : List (Input String Nat)} (probed : Probed (history (step b) s inputs)) :
    (run (step b) s inputs).world.state = some .HALF_OPEN := by
  obtain ⟨earlier,turn,since,split,turns,stays,_⟩ := probed
  rcases List.eq_nil_or_concat since with rfl | ⟨others,last,rfl⟩
  · rw [run_of_last split]
    exact turns.2
  · have ends : history (step b) s inputs = (earlier ++ turn :: others) ++ [last] := by
      rw [split,List.concat_eq_append]
      simp
    rw [run_of_last ends]
    exact stays last (by simp)

theorem two_of_countP {α : Type} {p : α → Bool} {l : List α} (two : 1 < l.countP p) :
    ∃ first second rest, l = first ++ second :: rest ∧ p second ∧ ∃ a ∈ first, p a := by
  induction l using List.reverseRecOn with
  | nil => cases two
  | append_singleton l last ih =>
    by_cases counted : p last
    · have one : 0 < l.countP p := by
        rw [List.countP_append,List.countP_singleton,if_pos counted] at two
        omega
      exact ⟨l,last,[],rfl,counted,List.countP_pos_iff.mp one⟩
    · rw [List.countP_append,List.countP_singleton,if_neg counted,Nat.add_zero] at two
      obtain ⟨first,second,rest,rfl,there,before⟩ := ih two
      exact ⟨first,second,rest ++ [last],by simp,there,before⟩

variable (b) in
/-- What a run admits is kept to the rule if and only if its steps meet the condition. -/
theorem admissions_kept_iff (w : World) (inputs : List (Input String Nat)) :
    Kept b (history (step b) (System.start w) inputs) ↔
      ∀ earlier t later, history (step b) (System.start w) inputs = earlier ++ t :: later → Meets b earlier t.before t.input := by
  have each : ∀ earlier t later, history (step b) (System.start w) inputs = earlier ++ t :: later →
      (Meets b earlier t.before t.input ↔ (admits t → Free b earlier t.before.world)) ∧
      (admits t → t.before.world.state = some .HALF_OPEN → t.after.world.state = some .HALF_OPEN) ∧
      (Probed earlier → t.before.world.state = some .HALF_OPEN) := by
    intro earlier t later split
    obtain ⟨before,i,_,_,rfl,rfl,_⟩ := history_split split
    have placed : Placed allowed (after b) Ended .reading (run (step b) (System.start w) before) :=
      run_placed program_follows w before
    exact ⟨step_meets_iff placed halfOpen_of_probed i,halfOpen_of_admits placed,halfOpen_of_probed⟩
  constructor
  · rintro ⟨cool,once⟩ earlier t later split
    obtain ⟨meets,stays,halfOpen⟩ := each earlier t later split
    refine meets.mpr fun admitted => ⟨cool t (by rw [split]; simp) admitted,fun probed => ?_⟩
    have last := stays admitted (halfOpen probed)
    obtain ⟨earlier',turn,since,rfl,turns,since_,first⟩ := probed
    have one := once earlier' turn (since ++ [t]) later (by rw [split]; simp) turns (by simpa [or_imp,forall_and] using ⟨since_,last⟩)
    have some_ : 0 < (turn :: since).countP admits := List.countP_pos_iff.mpr first
    rw [← List.cons_append,List.countP_append,List.countP_singleton,if_pos admitted] at one
    omega
  · intro meets
    have free : ∀ earlier t later, history (step b) (System.start w) inputs = earlier ++ t :: later →
        admits t → Free b earlier t.before.world :=
      fun earlier t later split => (each earlier t later split).1.mp (meets earlier t later split)
    constructor
    · intro t member admitted
      obtain ⟨earlier,later,split⟩ := List.append_of_mem member
      exact (free earlier t later split admitted).1
    · intro earlier turn since later split turns stays
      by_contra many
      obtain ⟨first,second,rest,found,admitted,before⟩ := two_of_countP (Nat.lt_of_not_le many)
      cases first with
      | nil =>
        obtain ⟨a,none,_⟩ := before
        cases none
      | cons head middle =>
        obtain ⟨rfl,rfl⟩ := List.cons.inj found
        have moved : history (step b) (System.start w) inputs = (earlier ++ turn :: middle) ++ second :: (rest ++ later) := by
          rw [split]
          simp
        exact (free _ second _ moved admitted).2 ⟨earlier,turn,middle,rfl,turns,fun t listed => stays t (by simp [listed]),before⟩

end Admissions

def defaultBreaker : RedisCircuitBreaker := .new ⟨none,none,none⟩

/-- An open circuit whose cooldown has just elapsed. -/
def elapsedWorld : World := ⟨60000,some .OPEN,none,some 0⟩

/-- Two calls read that the cooldown is over, command by command. -/
def twoChecks : List (Input String Nat) :=
  [.start 0 "webhook",.start 1 "webhook",.proceed 0 .ok,.proceed 1 .ok,.proceed 0 .ok,.proceed 1 .ok,.proceed 0 .ok,
   .proceed 1 .ok]

/-- The second call is let in alone, and its failure trips the circuit again. -/
def probeFails : List (Input String Nat) :=
  [.proceed 1 .ok,.proceed 1 (.failed "timeout")] ++ List.replicate 4 (.proceed 1 .ok)

/-- Both calls are let in by one turn to HALF_OPEN; and where the second has failed in
    between, the first is let in while the circuit cools down. -/
theorem checks_overtaken :
    ¬ Kept defaultBreaker (history (step defaultBreaker) (System.start elapsedWorld)
      (twoChecks ++ [.proceed 0 .ok,.proceed 1 .ok])) ∧
    ¬ ∀ t ∈ history (step defaultBreaker) (System.start elapsedWorld) (twoChecks ++ probeFails ++ [.proceed 0 .ok]),
      admits t → ¬ CoolingDown defaultBreaker t.before.world := by
  constructor
  · rintro ⟨_,once⟩
    have waiting : (run (step defaultBreaker) (System.start elapsedWorld) twoChecks).world.state ≠ some .HALF_OPEN := by decide
    have canaries := once (history (step defaultBreaker) (System.start elapsedWorld) twoChecks)
      (transition (step defaultBreaker) (run (step defaultBreaker) (System.start elapsedWorld) twoChecks) (.proceed 0 .ok))
      (history (step defaultBreaker)
        (step defaultBreaker (run (step defaultBreaker) (System.start elapsedWorld) twoChecks) (.proceed 0 .ok)).2
        [.proceed 1 .ok])
      [] (by rw [history_append]; simp) ⟨waiting,by decide⟩ (by decide)
    revert canaries
    decide
  · intro cool
    have member : transition (step defaultBreaker)
        (run (step defaultBreaker) (System.start elapsedWorld) (twoChecks ++ probeFails)) (.proceed 0 .ok) ∈
        history (step defaultBreaker) (System.start elapsedWorld) (twoChecks ++ probeFails ++ [.proceed 0 .ok]) := by
      rw [history_append]
      exact List.mem_append_right _ (List.mem_singleton_self _)
    have tripped : (run (step defaultBreaker) (System.start elapsedWorld) (twoChecks ++ probeFails)).world =
        ⟨60000,some .OPEN,none,some 60000⟩ := by decide
    refine cool _ member (by decide) ⟨congrArg World.state tripped,fun openedAt stored => ?_⟩
    have now : (run (step defaultBreaker) (System.start elapsedWorld) (twoChecks ++ probeFails)).world.now = 60000 :=
      congrArg World.now tripped
    have time := stored.symm.trans (congrArg World.openedAt tripped)
    obtain rfl := Option.some.inj time
    rw [transition,now]
    decide

end StellarAlerts.CircuitAdmission
