import StellarAlerts.CircuitBreaker

/-!
When an open circuit can be tried again. A trip writes the state before the time, and a
success clears the time after the state, maybe behind another call's trip. An OPEN state
has its time in every state of a run exactly when every such write finds the other key
as it needs it (`open_stored_iff`).
-/
namespace StellarAlerts.CircuitOpening
open Histories
open Interleaving hiding step
open RemoteCalls CircuitBreaker

/-- An OPEN state has its time. -/
def Stored (w : World) : Prop := w.state = some .OPEN → w.openedAt.isSome

instance (w : World) : Decidable (Stored w) := inferInstanceAs (Decidable (w.state = some .OPEN → w.openedAt.isSome))

/-- A write of one key finds the other so that OPEN keeps its time. -/
def QueryMeets (w : World) : Query → Prop
  | .setState .OPEN => w.openedAt.isSome
  | .delOpenedAt => w.state ≠ some .OPEN
  | _ => True

/-- The command that is carried out in a step, if any, meets the condition. -/
def Meets (s : System) : Input Call Nat → Prop
  | .proceed c outcome => outcome.applied = true → ∀ q, s.At c q → QueryMeets s.world q
  | _ => True

theorem exec_incrFailures (w : World) : ∃ failures, (exec w .incrFailures).2 = { w with failures } := by
  simp only [exec]
  split
  · exact ⟨_,rfl⟩
  · exact ⟨_,rfl⟩

variable {w : World}

theorem exec_stored_iff (stored : Stored w) (q : Query) : Stored (exec w q).2 ↔ QueryMeets w q := by
  cases q with
  | setState state => cases state <;> simp [Stored,QueryMeets,exec]
  | setOpenedAt at_ => simp [Stored,QueryMeets,exec]
  | delOpenedAt => simp [Stored,QueryMeets,exec]
  | incrFailures =>
    obtain ⟨failures,counted⟩ := exec_incrFailures w
    rw [counted]
    exact iff_of_true stored trivial
  | getState | getOpenedAt | delFailures | expireFailures _ | dateNow | fn => exact iff_of_true stored trivial

section Steps
variable (b : RedisCircuitBreaker)

variable {s : System}

theorem step_stored_iff (stored : Stored s.world) (i : Input Call Nat) : Stored (step b s i).2.world ↔ Meets s i := by
  rcases step_cases exec (Call.program b) elapse s i with same | ⟨c,call,rfl,_,moved⟩ |
    ⟨c,outcome,made,q,next,rfl,standing,moved⟩ | ⟨c,rfl,moved⟩ | ⟨ms,rfl,moved⟩
  · have idle : Meets s i := by
      cases i with
      | proceed c outcome =>
        rintro _ q ⟨made,next,standing⟩
        have moved : step b s (.proceed c outcome) = (none,s) := same
        simp [step,Interleaving.step,standing] at moved
      | _ => trivial
    rw [step,same]
    exact iff_of_true stored idle
  · rw [step,moved]
    exact iff_of_true stored trivial
  · have onlyCall : ∀ q', s.At c q' ↔ q' = q := by
      intro q'
      constructor
      · rintro ⟨made',next',standing'⟩
        rw [standing] at standing'
        cases standing'
        rfl
      · rintro rfl
        exact ⟨made,next,standing⟩
    rw [step,moved]
    simp only [Meets,onlyCall,forall_eq,System.put_world,System.setWorld_world]
    cases outcome with
    | failed message => simpa [respond,Outcome.applied] using stored
    | ok => simpa [respond,Outcome.applied] using exec_stored_iff stored q
    | lost message => simpa [respond,Outcome.applied] using exec_stored_iff stored q
  · rw [step,moved]
    exact iff_of_true stored trivial
  · rw [step,moved]
    exact iff_of_true stored trivial

theorem history_stored_iff (stored : Stored s.world) (inputs : List (Input Call Nat)) :
    (∀ t ∈ history (step b) s inputs, Stored t.after.world) ↔
      ∀ t ∈ history (step b) s inputs, Meets t.before t.input := by
  induction inputs generalizing s with
  | nil => simp
  | cons i rest ih =>
    simp only [history_cons,List.forall_mem_cons]
    have first := step_stored_iff b stored i
    constructor
    · rintro ⟨now,later⟩
      exact ⟨first.mp now,(ih now).mp later⟩
    · rintro ⟨now,later⟩
      have next := first.mpr now
      exact ⟨next,(ih next).mpr later⟩

/-- A call of `getState` by an idle thread after a wait. -/
def retry (c wait : Nat) : List (Input Call Nat) :=
  .outside wait :: .start c .getState :: List.replicate 4 (.proceed c .ok)

/-- After some wait and any longer one, the next call of `getState` moves the circuit on to HALF_OPEN. -/
def MovesOn (s : System) : Prop :=
  ∃ least, ∀ wait, least ≤ wait → ∀ c, s.threads c = none →
    (run (step b) s (retry c wait)).world.state = some .HALF_OPEN ∧
      (run (step b) s (retry c wait)).returned c = some (.ok (some .HALF_OPEN))

variable {openedAt : Nat}

theorem cooldown_over {now wait : Nat} (waited : b.cooldownSeconds * 1000 + openedAt ≤ wait) :
    (b.cooldownSeconds : Int) ≤ elapsedSeconds (now + wait) openedAt := by
  unfold elapsedSeconds
  omega

theorem run_retry {c : Nat} (idle : s.threads c = none) (wait : Nat) :
    (run (step b) s (retry c wait)).world = (alone exec 4 (elapse wait s.world) (Call.program b .getState)).1 ∧
      ∃ made, (run (step b) s (retry c wait)).threads c =
        some ⟨made,(alone exec 4 (elapse wait s.world) (Call.program b .getState)).2⟩ := by
  have waited : (step b s (.outside wait)).2 = s.setWorld (elapse wait s.world) := rfl
  have started : (step b (s.setWorld (elapse wait s.world)) (.start c .getState)).2 =
      (s.setWorld (elapse wait s.world)).put c (some ⟨[],Call.program b .getState⟩) := by
    simp [step,Interleaving.step,idle]
  have running : ((s.setWorld (elapse wait s.world)).put c (some ⟨[],Call.program b .getState⟩)).threads c =
      some ⟨[],Call.program b .getState⟩ := by rw [System.put_threads,if_pos rfl]
  rw [retry,run_cons,waited,run_cons,started]
  exact run_alone exec (Call.program b) elapse running 4

theorem getState_moves {w : World} (isOpen : w.state = some .OPEN) (stored : w.openedAt = some openedAt)
    (cooled : (b.cooldownSeconds : Int) ≤ elapsedSeconds w.now openedAt) :
    alone exec 4 w (Call.program b .getState) =
      ({ w with state := some .HALF_OPEN },.returned (.ok (some .HALF_OPEN))) := by
  obtain ⟨now,state,failures,opened⟩ := w
  obtain rfl : state = some .OPEN := isOpen
  obtain rfl : opened = some openedAt := stored
  have reads : alone exec 4 ⟨now,some .OPEN,failures,some openedAt⟩ (Call.program b .getState) =
      alone exec 1 ⟨now,some .OPEN,failures,some openedAt⟩ (some <$> tryCatch
        (if (b.cooldownSeconds : Int) ≤ elapsedSeconds now openedAt then do
          let _ ← ask (.setState .HALF_OPEN)
          pure .HALF_OPEN
        else pure .OPEN) (fun _ => pure .CLOSED) : Code (Option CircuitState)).run := rfl
  rw [reads,if_pos cooled]
  rfl

theorem movesOn_of_openedAt (isOpen : s.world.state = some .OPEN) (stored : s.world.openedAt = some openedAt) :
    MovesOn b s := by
  refine ⟨b.cooldownSeconds * 1000 + openedAt,fun wait waited c idle => ?_⟩
  have moves := getState_moves b (w := elapse wait s.world) isOpen stored (cooldown_over b waited)
  obtain ⟨world,made,running⟩ := run_retry b idle wait
  rw [moves] at world running
  exact ⟨by rw [world],by simp [System.returned,running]⟩

theorem stays_of_unstored (isOpen : s.world.state = some .OPEN) (unstored : s.world.openedAt = none) {c : Nat}
    (idle : s.threads c = none) (wait : Nat) :
    (run (step b) s (retry c wait)).world.state = some .OPEN ∧
      (run (step b) s (retry c wait)).returned c = some (.ok (some .OPEN)) := by
  obtain ⟨world,made,running⟩ := run_retry b idle wait
  generalize s.world = w at *
  obtain ⟨now,state,failures,opened⟩ := w
  obtain rfl : state = some .OPEN := isOpen
  obtain rfl : opened = none := unstored
  have reads : alone exec 4 (elapse wait ⟨now,some .OPEN,failures,none⟩) (Call.program b .getState) =
      (elapse wait ⟨now,some .OPEN,failures,none⟩,.returned (.ok (some .OPEN))) := rfl
  rw [reads] at world running
  exact ⟨by rw [world]; rfl,by simp [System.returned,running]⟩

/-- In every state of a run an OPEN circuit has its time and moves on after the cooldown, if and only if every write that is carried out
    finds the other key as it needs it. -/
theorem open_stored_iff {w : World} (stored : Stored w) (inputs : List (Input Call Nat)) :
    (∀ t ∈ history (step b) (System.start w) inputs,
      t.after.world.state = some .OPEN → t.after.world.openedAt.isSome ∧ MovesOn b t.after) ↔
      ∀ t ∈ history (step b) (System.start w) inputs, Meets t.before t.input := by
  rw [← history_stored_iff b (s := System.start w) stored inputs]
  constructor
  · intro holds t member isOpen
    exact (holds t member isOpen).1
  · intro holds t member isOpen
    have isStored := holds t member isOpen
    obtain ⟨openedAt,found⟩ := Option.isSome_iff_exists.mp isStored
    exact ⟨isStored,movesOn_of_openedAt b isOpen found⟩

end Steps

/-- One failure trips this breaker. -/
def sampleBreaker : RedisCircuitBreaker := .new ⟨some 1,none,none⟩

/-- A half-open circuit that keeps the time of its last trip. -/
def halfOpenWorld : World := ⟨60000,some .HALF_OPEN,none,some 0⟩

/-- The canary fails, and its failure trips the circuit again. -/
def failedCanary : List (Input Call Nat) := .start 0 .recordFailure :: List.replicate 4 (.proceed 0 .ok)

theorem failed_canary_stored :
    (∀ t ∈ history (step sampleBreaker) (System.start halfOpenWorld) failedCanary,
      t.after.world.state = some .OPEN → t.after.world.openedAt.isSome ∧ MovesOn sampleBreaker t.after) ∧
    (run (step sampleBreaker) (System.start halfOpenWorld) failedCanary).world = ⟨60000,some .OPEN,none,some 60000⟩ := by
  have meets := (history_stored_iff sampleBreaker (s := System.start halfOpenWorld) nofun failedCanary).mp (by decide)
  exact ⟨(open_stored_iff sampleBreaker (w := halfOpenWorld) nofun failedCanary).mpr meets,by decide⟩

def freshWorld : World := ⟨0,none,none,none⟩

/-- A call trips the circuit and, a minute later, another finds it half open. -/
def tripAndReopen : List (Input Call Nat) :=
  .start 0 .recordFailure :: List.replicate 6 (.proceed 0 .ok) ++
    .outside 60000 :: .start 1 .getState :: List.replicate 4 (.proceed 1 .ok)

/-- A success and a failure of the half-open circuit are recorded at once: the success writes CLOSED, the failure trips again, and then
    the success clears what is the new trip's time. -/
def lateClear : List (Input Call Nat) :=
  [.start 2 .recordSuccess,.proceed 2 .ok,.start 3 .recordFailure,.proceed 3 .ok,.proceed 2 .ok,.proceed 2 .ok,
   .proceed 3 .ok,.proceed 3 .ok,.proceed 3 .ok,.proceed 2 .ok]

def reopened : System := run (step sampleBreaker) (System.start freshWorld) (tripAndReopen ++ lateClear)

/-- All calls have returned, the circuit is OPEN without a time, and it moves on after no wait. -/
theorem open_for_good :
    (∀ c ∈ [0,1,2,3], (reopened.returned c).isSome) ∧ reopened.world.state = some .OPEN ∧
      reopened.world.openedAt = none ∧ ¬ MovesOn sampleBreaker reopened := by
  have isOpen : reopened.world.state = some .OPEN := by decide
  have unstored : reopened.world.openedAt = none := by decide
  refine ⟨by decide,isOpen,unstored,?_⟩
  rintro ⟨least,moves⟩
  have halfOpen := (moves least (Nat.le_refl _) 4 rfl).1
  rw [(stays_of_unstored sampleBreaker isOpen unstored rfl least).1] at halfOpen
  cases halfOpen

end StellarAlerts.CircuitOpening
