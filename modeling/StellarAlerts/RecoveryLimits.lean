import StellarAlerts.MfaRecovery
import StellarAlerts.UniqueTables

/-!
What holds of every run of recovery calls. The marking of a code is a step of its own,
and a call returns a token only after it; where each marking finds its code unused no
code is marked twice.
-/
namespace StellarAlerts.MfaRecovery
open Histories
open Interleaving hiding step
open RemoteCalls
open UniqueTables (find_map)

abbrev Step := Transition System (Input Task Wait) (Option (Answered Query Value))

/-- In this step a code is marked used, and the call is told so. -/
def Uses (id : String) (t : Step) : Prop := t.answer = some ⟨.useCode id,.ok ()⟩

def usesCode (id : String) : Option (Answered Query Value) → Bool
  | some ⟨.useCode other,.ok _⟩ => other == id
  | _ => false

theorem usesCode_iff {id : String} {answered : Option (Answered Query Value)} :
    usesCode id answered = true ↔ answered = some ⟨.useCode id,.ok ()⟩ := by
  constructor
  · intro uses
    unfold usesCode at uses
    split at uses
    · rw [beq_iff_eq.mp uses]
    · cases uses
  · rintro rfl
    exact beq_self_eq_true id

instance (id : String) (t : Step) : Decidable (Uses id t) := decidable_of_iff (usesCode id t.answer = true) usesCode_iff

def Used (id : String) (w : World) : Prop := ∃ row, w.code id = some row ∧ row.used = true

def findsUnused (s : System) : Input Task Wait → Bool
  | .proceed c outcome =>
    match s.pending c with
    | some (.useCode id) => !outcome.applied || (s.world.code id).map MfaRecoveryCode.used != some true
    | _ => true
  | _ => true

theorem use_id (id : String) (usedAt : Nat) (row : MfaRecoveryCode) : (row.use id usedAt).id = row.id := by
  unfold MfaRecoveryCode.use
  split <;> rfl

theorem code_map {f : MfaRecoveryCode → MfaRecoveryCode} (kept : ∀ row, (f row).id = row.id) (rows : List MfaRecoveryCode)
    (id : String) : (rows.map f).find? (fun row => row.id == id) = (rows.find? fun row => row.id == id).map f :=
  find_map (fun row => by rw [kept row]) rows

theorem exec_used {w : World} {id : String} (used : Used id w) (q : Query) : Used id (exec w q).2 := by
  cases q with
  | useCode other =>
    obtain ⟨row,found,isUsed⟩ := used
    simp only [exec]
    split
    · exact ⟨row,found,isUsed⟩
    · refine ⟨row.use other w.clock,?_,?_⟩
      · rw [World.code,code_map (use_id other w.clock)]
        exact congrArg (Option.map _) found
      · unfold MfaRecoveryCode.use
        split
        · rfl
        · exact isUsed
  | checkLimit key =>
    simp only [exec]
    split
    · exact used
    · split <;> exact used
  | resetMfa userId =>
    simp only [exec]
    split <;> exact used
  | countAttempt _ _ _ | clearLimit _ | findUser _ | createAuditLog _ => exact used

theorem useCode_used {w : World} {id : String} (done : (exec w (.useCode id)).1 = .ok ()) : Used id (exec w (.useCode id)).2 := by
  cases found : w.code id with
  | none => simp [exec,found] at done
  | some row =>
    have own : row.id = id := by simpa using List.find?_some found
    refine ⟨row.use id w.clock,?_,by simp [MfaRecoveryCode.use,own]⟩
    simp only [exec,found,Option.isNone_some,Bool.false_eq_true,↓reduceIte]
    rw [World.code,code_map (use_id id w.clock)]
    exact congrArg (Option.map _) found

variable {p : Platform}

variable {s : System}

theorem step_used {id : String} (used : Used id s.world) (i : Input Task Wait) : Used id (step p s i).2.world :=
  step_world (I := Used id) exec (Task.program p) Wait.apply (fun _ q used => exec_used used q) (fun _ _ used => used) used i

theorem uses_cases {i : Input Task Wait} {id : String} (uses : Uses id (transition (step p) s i)) :
    ∃ c, i = .proceed c .ok ∧ s.pending c = some (.useCode id) ∧ Used id (step p s i).2.world := by
  obtain ⟨c,outcome,rfl,stands,answerIs,world⟩ := answer_cases exec (Task.program p) Wait.apply uses
  cases outcome with
  | failed message => cases answerIs
  | lost message => cases answerIs
  | ok =>
    rw [step,world]
    exact ⟨c,rfl,stands,useCode_used answerIs.symm⟩

variable {inputs : List (Input Task Wait)}

theorem used_once (unused : ∀ t ∈ history (step p) s inputs, findsUnused t.before t.input = true) :
    (history (step p) s inputs).Pairwise fun t u => ∀ id, Uses id t → ¬ Uses id u := by
  refine @history_once _ _ _ (step p) String Uses (fun id s => Used id s.world) (fun s i id uses => ?_)
    (fun s i id used => step_used used i) s inputs fun t listed id uses => ?_
  · obtain ⟨_,_,_,used⟩ := uses_cases uses
    exact used
  · have fresh := unused t listed
    obtain ⟨before,i,rfl⟩ := mem_history listed
    obtain ⟨c,rfl,stands,_⟩ := uses_cases uses
    rintro ⟨row,found,isUsed⟩
    simp only [transition] at fresh found
    simp [findsUnused,stands,Outcome.applied,found,isUsed] at fresh

/-- The code that a call has marked. -/
def usedAfter : Option String → (q : Query) → Except String (Value q) → Option String
  | _, .useCode id, .ok _ => some id
  | used, _, _ => used

/-- A call that returns has marked a code whose hash is that of the entered one. -/
def usedEnded (p : Platform) (recoveryCode : String) (ended : Except String Recovery) (used : Option String) : Prop :=
  ∀ recovery, ended = .ok recovery → ∃ row : MfaRecoveryCode, used = some row.id ∧
    verifyRecoveryCodeHash p recoveryCode row.codeHash = true

theorem usedEnded_error (recoveryCode e : String) (used : Option String) : usedEnded p recoveryCode (.error e) used := by
  intro recovery same
  cases same

theorem refuse_used (rateLimitKey : String) (currentLimit : Nat) (email recoveryCode : String) (ipAddress : Option String)
    (failure : Failure) : Follows (fun _ _ => True) usedAfter (usedEnded p recoveryCode) none
      (refuse rateLimitKey currentLimit email ipAddress failure).run := by
  refine follows_asked trivial (fun e => usedEnded_error _ e _) fun _ => ?_
  exact follows_asked trivial (fun e => usedEnded_error _ e _) fun _ => usedEnded_error _ _ _

theorem recover_used (rateLimitKey : String) (user : User) {matchedCode : MfaRecoveryCode} {recoveryCode : String}
    (ipAddress : Option String) (right : verifyRecoveryCodeHash p recoveryCode matchedCode.codeHash = true) :
    Follows (fun _ _ => True) usedAfter (usedEnded p recoveryCode) none
      (recover rateLimitKey user matchedCode ipAddress).run := by
  refine follows_asked trivial (fun e => usedEnded_error _ e _) fun _ => ?_
  refine follows_asked trivial (fun e => usedEnded_error _ e _) fun _ => ?_
  refine follows_asked trivial (fun e => usedEnded_error _ e _) fun _ => ?_
  exact follows_asked trivial (fun e => usedEnded_error _ e _) fun _ => fun _ _ => ⟨matchedCode,rfl,right⟩

theorem judge_used (rateLimitKey : String) (currentLimit : Nat) (email recoveryCode : String) (ipAddress : Option String)
    (found : Option (User × List MfaRecoveryCode)) : Follows (fun _ _ => True) usedAfter (usedEnded p recoveryCode) none
      (judge p rateLimitKey currentLimit email recoveryCode ipAddress found).run := by
  unfold judge
  cases found with
  | none => exact refuse_used ..
  | some pair =>
    obtain ⟨user,codes⟩ := pair
    dsimp only
    split
    · exact refuse_used ..
    · cases matched : codes.find? fun row => verifyRecoveryCodeHash p recoveryCode row.codeHash with
      | none => exact refuse_used ..
      | some matchedCode =>
        exact recover_used rateLimitKey user ipAddress (by simpa using List.find?_some matched)

theorem program_used (task : Task) :
    Follows (fun _ _ => True) usedAfter (usedEnded p task.recoveryCode) none (task.program p) := by
  refine follows_asked trivial (fun e => usedEnded_error _ e _) fun currentLimit => ?_
  exact follows_asked trivial (fun e => usedEnded_error _ e _) fun found => judge_used ..

variable {made : List (Answered Query Value)}

theorem used_made {rest : Program Query Value (Except String Recovery)} {id : String}
    (used : (Thread.mk made rest).place usedAfter none = some id) : ⟨.useCode id,.ok ()⟩ ∈ made := by
  induction made using List.reverseRecOn with
  | nil => cases used
  | append_singleton made answered ih =>
    obtain ⟨q,answer⟩ := answered
    rw [Thread.place_append usedAfter none made q answer rest] at used
    cases q with
    | useCode other =>
      cases answer with
      | error e => exact List.mem_append_left _ (ih used)
      | ok _ =>
        obtain rfl : other = id := Option.some.inj used
        simp
    | checkLimit _ | countAttempt _ _ _ | clearLimit _ | findUser _ | resetMfa _ | createAuditLog _ =>
      exact List.mem_append_left _ (ih used)

theorem token_uses {c : Nat} {task : Task} {recovery : Recovery}
    (call : Completes exec (Task.program p) Wait.apply s c task inputs made (.ok recovery)) :
    ∃ row : MfaRecoveryCode, verifyRecoveryCodeHash p task.recoveryCode row.codeHash = true ∧
      ∃ t ∈ history (step p) (step p s (.start c task)).2 inputs, (∃ outcome, t.input = .proceed c outcome) ∧ Uses row.id t := by
  have thread := start_threads exec (Task.program p) Wait.apply call.idle task
  obtain ⟨t,running,follows⟩ := @follows_run _ _ _ _ _ _ _ (fun _ _ => True) usedAfter (usedEnded p task.recoveryCode) none exec
    (Task.program p) Wait.apply c _ ⟨_,thread,program_used task⟩ inputs call.started call.exited
  obtain rfl : t = ⟨made,.returned (.ok recovery)⟩ := Option.some.inj (running.symm.trans call.returned)
  obtain ⟨row,usedIs,right⟩ := follows recovery rfl
  have fresh : ∀ t, (step p s (.start c task)).2.threads c = some t → t.made = [] := by
    intro t other
    obtain rfl := Option.some.inj (thread.symm.trans other)
    rfl
  obtain ⟨u,member,own,answered⟩ := made_history exec (Task.program p) Wait.apply fresh inputs _ running _ (used_made usedIs)
  exact ⟨row,right,u,member,own,answered⟩

/-- In this step a call finds no limit of the key that still counts, and makes one. -/
def Opens (key : String) (t : Step) : Prop :=
  (∃ place, t.answer = some ⟨.checkLimit key,.ok place⟩) ∧ t.before.world.running key = none

/-- In this step a wrong code is counted. -/
def mistakes (key : String) (t : Step) : Bool :=
  match t.answer, t.input with
  | some ⟨.countAttempt other _ (.mismatch _),_⟩, .proceed _ outcome => other == key && outcome.applied
  | _, _ => false

def clears (key : String) (t : Step) : Bool :=
  match t.answer with
  | some ⟨.clearLimit other,_⟩ => other == key
  | _ => false

/-- A wrong code is counted by the limit that its key still has, and that has attempts left. -/
def counted (s : System) : Input Task Wait → Bool
  | .proceed c _ =>
    match s.pending c with
    | some (.countAttempt key place (.mismatch _)) => s.world.recoveryRateLimits key == some place &&
      (s.world.limits[place]?).any fun rateLimit => rateLimit.attempts < MAX_RECOVERY_ATTEMPTS
    | _ => true
  | _ => true

/-- As long as a window lasts and no right code is entered it has three wrong ones at most. -/
def Limited (steps : List Step) : Prop :=
  ∀ earlier t within after key, steps = earlier ++ t :: (within ++ after) → Opens key t →
    (∀ u ∈ within, u.before.world.clock < t.before.world.clock + RECOVERY_WINDOW_MS) →
    (∀ u ∈ within, clears key u = false) → within.countP (mistakes key) ≤ MAX_RECOVERY_ATTEMPTS

/-- The limit of the key was made at a time and has counted so many attempts, or more. -/
structure Window (key : String) (place first count : Nat) (w : World) : Prop where
  current : w.recoveryRateLimits key = some place
  counts : ∃ rateLimit, w.limits[place]? = some rateLimit ∧ rateLimit.firstAttemptAt = first ∧ count ≤ rateLimit.attempts

section Windows
variable {key : String} {place first count : Nat} {w : World}

section
variable (window : Window key place first count w)
include window

theorem window_running (early : w.clock < first + RECOVERY_WINDOW_MS) :
    ∃ rateLimit, w.running key = some (place,rateLimit) := by
  obtain ⟨rateLimit,held,firstIs,_⟩ := window.counts
  have live : w.clock - rateLimit.firstAttemptAt < RECOVERY_WINDOW_MS := by
    have some_ : 0 < RECOVERY_WINDOW_MS := by decide
    omega
  exact ⟨rateLimit,by simp [World.running,window.current,held,live]⟩

theorem exec_window (early : w.clock < first + RECOVERY_WINDOW_MS) {q : Query}
    (kept : q ≠ .clearLimit key) : Window key place first count (exec w q).2 := by
  cases q with
  | checkLimit other =>
    simp only [exec]
    split
    · rename_i expired
      have apart : key ≠ other := by
        rintro rfl
        obtain ⟨rateLimit,running⟩ := window_running window early
        rw [expired] at running
        cases running
      obtain ⟨rateLimit,held,known⟩ := window.counts
      refine ⟨?_,rateLimit,?_,known⟩
      · simpa [World.open,World.setLimit,apart] using window.current
      · have below : place < w.limits.length := (List.getElem?_eq_some_iff.mp held).1
        simpa [World.open,World.setLimit,List.getElem?_append_left below] using held
    · split <;> exact window
  | countAttempt other there failure =>
    obtain ⟨rateLimit,held,firstIs,atLeast⟩ := window.counts
    refine ⟨window.current,?_⟩
    by_cases own : there = place
    · subst own
      refine ⟨rateLimit.count,by simp [exec,held],firstIs,?_⟩
      show count ≤ rateLimit.attempts + 1
      omega
    · exact ⟨rateLimit,by simp [exec,own,held],firstIs,atLeast⟩
  | clearLimit other =>
    have apart : key ≠ other := fun same => kept (by rw [same])
    exact ⟨by simpa [exec,World.setLimit,apart] using window.current,window.counts⟩
  | useCode id =>
    simp only [exec]
    split
    · exact window
    · exact ⟨window.current,window.counts⟩
  | resetMfa userId =>
    simp only [exec]
    split
    · exact window
    · exact ⟨window.current,window.counts⟩
  | findUser _ | createAuditLog _ => exact ⟨window.current,window.counts⟩

theorem exec_counts (other : String) (failure : Failure) :
    Window key place first (count + 1) (exec w (.countAttempt other place failure)).2 := by
  obtain ⟨rateLimit,held,firstIs,atLeast⟩ := window.counts
  refine ⟨window.current,rateLimit.count,by simp [exec,held],firstIs,?_⟩
  show count + 1 ≤ rateLimit.attempts + 1
  omega

end

variable {s : System}

theorem mistakes_call {c : Nat} {outcome : Outcome} {q : Query} {answer : Except String (Value q)}
    (answered : (step p s (.proceed c outcome)).1 = some ⟨q,answer⟩)
    (mistake : mistakes key (transition (step p) s (.proceed c outcome)) = true) :
    ∃ place userId, q = .countAttempt key place (.mismatch userId) ∧ outcome.applied = true := by
  unfold mistakes at mistake
  simp only [transition,answered] at mistake
  cases q with
  | countAttempt other place failure =>
    cases failure with
    | notConfigured => cases mistake
    | mismatch userId =>
      simp only [Bool.and_eq_true,beq_iff_eq] at mistake
      exact ⟨place,userId,by rw [mistake.1],mistake.2⟩
  | checkLimit _ | clearLimit _ | findUser _ | useCode _ | resetMfa _ | createAuditLog _ => cases mistake

theorem opens_window {i : Input Task Wait} (opens : Opens key (transition (step p) s i)) :
    ∃ place, Window key place s.world.clock 0 (step p s i).2.world := by
  obtain ⟨⟨place,answered⟩,expired⟩ := opens
  obtain ⟨c,outcome,_,_,answerIs,world⟩ := answer_cases exec (Task.program p) Wait.apply answered
  cases outcome with
  | failed message => cases answerIs
  | lost message => cases answerIs
  | ok =>
    have made : exec s.world (.checkLimit key) = (.ok s.world.limits.length,s.world.open key) := by
      simp only [transition] at expired
      simp only [exec,expired]
    rw [step,world,respond,made]
    exact ⟨s.world.limits.length,by simp [World.open,World.setLimit],⟨0,s.world.clock⟩,
      by simp [World.open,World.setLimit],rfl,le_refl _⟩

theorem window_step {i : Input Task Wait} (window : Window key place first count s.world)
    (below : count ≤ MAX_RECOVERY_ATTEMPTS) (early : s.world.clock < first + RECOVERY_WINDOW_MS)
    (kept : clears key (transition (step p) s i) = false) (counts : counted s i = true) :
    (mistakes key (transition (step p) s i) = false ∧ Window key place first count (step p s i).2.world) ∨
      (mistakes key (transition (step p) s i) = true ∧ Window key place first (count + 1) (step p s i).2.world ∧
        count + 1 ≤ MAX_RECOVERY_ATTEMPTS) := by
  cases answered : (step p s i).1 with
  | none =>
    refine .inl ⟨by simp [mistakes,transition,answered],?_⟩
    rcases step_cases exec (Task.program p) Wait.apply s i with same | ⟨c,task,_,_,moved⟩ |
      ⟨c,outcome,made,q,next,_,_,moved⟩ | ⟨c,_,moved⟩ | ⟨o,_,moved⟩
    · rw [step,same]
      exact window
    · rw [step,moved]
      exact window
    · rw [step,moved] at answered
      cases answered
    · rw [step,moved]
      exact window
    · rw [step,moved]
      exact ⟨window.current,window.counts⟩
  | some call =>
    obtain ⟨q,answer⟩ := call
    obtain ⟨c,outcome,rfl,stands,answerIs,world⟩ := answer_cases exec (Task.program p) Wait.apply answered
    have other : q ≠ .clearLimit key := by
      rintro rfl
      simp [clears,transition,answered] at kept
    by_cases mistake : mistakes key (transition (step p) s (.proceed c outcome)) = true
    · refine .inr ⟨mistake,?_⟩
      obtain ⟨there,userId,rfl,applied⟩ := mistakes_call answered mistake
      simp only [counted,stands,Bool.and_eq_true,beq_iff_eq] at counts
      obtain rfl : there = place := Option.some.inj (counts.1.symm.trans window.current)
      obtain ⟨rateLimit,held,_,atLeast⟩ := window.counts
      have left : rateLimit.attempts < MAX_RECOVERY_ATTEMPTS := by simpa [held] using counts.2
      refine ⟨?_,by omega⟩
      rw [step,world]
      cases outcome with
      | failed message => cases applied
      | ok => exact exec_counts window key (.mismatch userId)
      | lost message => exact exec_counts window key (.mismatch userId)
    · refine .inl ⟨Bool.eq_false_iff.mpr mistake,?_⟩
      rw [step,world]
      cases outcome with
      | failed message => exact window
      | ok => exact exec_window window early other
      | lost message => exact exec_window window early other

theorem window_run (window : Window key place first 0 s.world) (inputs : List (Input Task Wait)) :
    (∀ u ∈ history (step p) s inputs, u.before.world.clock < first + RECOVERY_WINDOW_MS) →
    (∀ u ∈ history (step p) s inputs, clears key u = false) →
    (∀ u ∈ history (step p) s inputs, counted u.before u.input = true) →
      Window key place first ((history (step p) s inputs).countP (mistakes key)) (run (step p) s inputs).world ∧
        (history (step p) s inputs).countP (mistakes key) ≤ MAX_RECOVERY_ATTEMPTS := by
  refine @history_rec _ _ _ (step p) (fun past s => (∀ u ∈ past, u.before.world.clock < first + RECOVERY_WINDOW_MS) →
    (∀ u ∈ past, clears key u = false) → (∀ u ∈ past, counted u.before u.input = true) →
      Window key place first (past.countP (mistakes key)) s.world ∧ past.countP (mistakes key) ≤ MAX_RECOVERY_ATTEMPTS)
    s ?_ ?_ inputs
  · intro _ _ _
    exact ⟨window,Nat.zero_le _⟩
  · intro past s i sofar early kept counts
    have now : transition (step p) s i ∈ past ++ [transition (step p) s i] := by simp
    obtain ⟨held,below⟩ := sofar (fun u listed => early u (List.mem_append_left _ listed))
      (fun u listed => kept u (List.mem_append_left _ listed)) fun u listed => counts u (List.mem_append_left _ listed)
    rw [List.countP_append,List.countP_singleton]
    rcases window_step held below (early _ now) (kept _ now) (counts _ now) with ⟨right,stays⟩ | ⟨wrong,grows,fits⟩
    · rw [if_neg (by simp [right]),Nat.add_zero]
      exact ⟨stays,below⟩
    · rw [if_pos wrong]
      exact ⟨grows,fits⟩

theorem limited (s : System) (inputs : List (Input Task Wait))
    (counts : ∀ t ∈ history (step p) s inputs, counted t.before t.input = true) : Limited (history (step p) s inputs) := by
  intro earlier t within after key split opens early kept
  have later : ∀ u ∈ within, counted u.before u.input = true := fun u listed => counts u (by simp [split,listed])
  obtain ⟨before,i,rest,rfl,rfl,rfl,restIs⟩ := history_split split
  obtain ⟨inside,beyond,rfl,rfl,_⟩ := history_parts restIs.symm
  obtain ⟨place,window⟩ := opens_window opens
  exact (window_run window inside early kept later).2

end Windows

/-- In the runs in which every marking finds its code unused no code is marked twice; a call returns a token only
    after its own marking of the code that was entered. In the runs in which a wrong code is counted by the limit
    that its e-mail still has and that has attempts left, a window has three wrong codes at most before a right one. -/
theorem recovery_limits (p : Platform) (w : World) (inputs : List (Input Task Wait)) :
    ((∀ t ∈ history (step p) (System.start w) inputs, findsUnused t.before t.input = true) →
      (history (step p) (System.start w) inputs).Pairwise fun t u => ∀ id, Uses id t → ¬ Uses id u) ∧
    (∀ first second c task made recovery, inputs = first ++ .start c task :: second →
      Completes exec (Task.program p) Wait.apply (run (step p) (System.start w) first) c task second made (.ok recovery) →
      ∃ row : MfaRecoveryCode, verifyRecoveryCodeHash p task.recoveryCode row.codeHash = true ∧
        ∃ t ∈ history (step p) (step p (run (step p) (System.start w) first) (.start c task)).2 second,
          (∃ outcome, t.input = .proceed c outcome) ∧ Uses row.id t) ∧
    ((∀ t ∈ history (step p) (System.start w) inputs, counted t.before t.input = true) →
      Limited (history (step p) (System.start w) inputs)) := by
  refine ⟨used_once,?_,limited _ inputs⟩
  rintro first second c task made recovery rfl call
  exact token_uses call

def latin : Platform := ⟨id,id⟩
def goodCode : String := "abcd-1234"

/-- The user has one code left. -/
def enrolled : World :=
  ⟨1700000000000,[⟨"u","a@b.c",true,some "S"⟩],
    [⟨"r","u","1635c8525afbae58c37bede3c9440844e9143727cc7c160bed665ec378d8a262",false,none⟩],[],fun _ => none,[]⟩

def enters (recoveryCode : String) : Task := ⟨" A@b.c",recoveryCode,none⟩
def wrongFirst : List (Input Task Wait) :=
  .start 1 (enters "WXYZ-9876") :: List.replicate 4 (.proceed 1 .ok) ++ [.outside ⟨1000⟩]
def enteredAgain : List (Input Task Wait) :=
  List.replicate 6 (.proceed 2 .ok) ++ .start 3 (enters goodCode) :: List.replicate 4 (.proceed 3 .ok)

/-- A wrong code, the right one, and the right one again. -/
def inTurn : List (Input Task Wait) := wrongFirst ++ .start 2 (enters goodCode) :: enteredAgain

def recovered : Recovery := ⟨"u","a@b.c",RECOVERED⟩

theorem inTurn_returned :
    ((history (step latin) (System.start enrolled) inTurn).all fun t =>
        findsUnused t.before t.input && counted t.before t.input) = true ∧
      (run (step latin) (System.start enrolled) inTurn).returned 2 = some (.ok recovered) ∧
      (run (step latin) (System.start enrolled) inTurn).returned 3 = some (.error Failure.notConfigured.message) := by
  decide +kernel

theorem goodCode_completes : ∃ made, Completes exec (Task.program latin) Wait.apply
    (run (step latin) (System.start enrolled) wrongFirst) 2 (enters goodCode) enteredAgain made (.ok recovered) := by
  obtain ⟨_,returned,_⟩ := inTurn_returned
  rw [inTurn,run_append] at returned
  have alike : (run (Interleaving.step exec (Task.program latin) Wait.apply)
      (run (step latin) (System.start enrolled) wrongFirst) (.start 2 (enters goodCode) :: enteredAgain)).returned 2 =
        some (.ok recovered) := returned
  obtain ⟨made,ended⟩ := thread_of_returned alike
  have idle : ∀ q, ¬ (System.start enrolled : System).At 2 q := by
    rintro q ⟨made,next,running⟩
    cases running
  refine ⟨made,idle_run exec (Task.program latin) Wait.apply (by decide) idle,?_,?_,ended⟩
  · intro task listed
    rcases List.mem_append.mp listed with proceeds | again
    · cases List.eq_of_mem_replicate proceeds
    · rcases List.mem_cons.mp again with same | last
      · exact absurd (Input.start.inj same).1 (by decide)
      · cases List.eq_of_mem_replicate last
  · intro listed
    rcases List.mem_append.mp listed with proceeds | again
    · cases List.eq_of_mem_replicate proceeds
    · rcases List.mem_cons.mp again with same | last
      · cases same
      · cases List.eq_of_mem_replicate last

theorem recovery_limits_inTurn :
    ((history (step latin) (System.start enrolled) inTurn).Pairwise fun t u => ∀ id, Uses id t → ¬ Uses id u) ∧
      (∃ row : MfaRecoveryCode, verifyRecoveryCodeHash latin goodCode row.codeHash = true ∧
        ∃ t ∈ history (step latin) (step latin (run (step latin) (System.start enrolled) wrongFirst)
          (.start 2 (enters goodCode))).2 enteredAgain, (∃ outcome, t.input = .proceed 2 outcome) ∧ Uses row.id t) ∧
      Limited (history (step latin) (System.start enrolled) inTurn) := by
  obtain ⟨once,calls,limits⟩ := recovery_limits latin enrolled inTurn
  have checked : ∀ t ∈ history (step latin) (System.start enrolled) inTurn,
      findsUnused t.before t.input = true ∧ counted t.before t.input = true := fun t listed => by
    simpa using List.all_eq_true.mp inTurn_returned.1 t listed
  obtain ⟨made,call⟩ := goodCode_completes
  exact ⟨once fun t listed => (checked t listed).1,calls wrongFirst enteredAgain 2 (enters goodCode) made recovered rfl call,
    limits fun t listed => (checked t listed).2⟩

/-- Two calls find the code before either marks it. -/
def codeAtOnce : List (Input Task Wait) :=
  [.start 1 (enters goodCode),.proceed 1 .ok,.start 2 (enters goodCode),.proceed 2 .ok,.proceed 1 .ok,.proceed 1 .ok,
    .proceed 2 .ok,.proceed 2 .ok] ++ List.replicate 3 (.proceed 1 .ok) ++ List.replicate 3 (.proceed 2 .ok)

/-- Three more calls are let in before the first has counted its wrong code, and all of them count. -/
def guesses : List (Input Task Wait) :=
  [2,3,4].flatMap (fun c => [.start c (enters "WXYZ-9876"),.proceed c .ok]) ++
    [1,2,3,4].flatMap fun c => List.replicate 3 (.proceed c .ok)

def guessesAtOnce : List (Input Task Wait) := [.start 1 (enters "WXYZ-9876")] ++ .proceed 1 .ok :: guesses

/-- Two calls with one code both return a token, and four wrong codes are compared in one window. -/
theorem recovery_limits_broken :
    (¬ ∀ (p : Platform) (w : World) (inputs : List (Input Task Wait)),
      (history (step p) (System.start w) inputs).Pairwise fun t u => ∀ id, Uses id t → ¬ Uses id u) ∧
    (run (step latin) (System.start enrolled) codeAtOnce).returned 1 = some (.ok recovered) ∧
    (run (step latin) (System.start enrolled) codeAtOnce).returned 2 = some (.ok recovered) ∧
    ¬ ∀ (p : Platform) (w : World) (inputs : List (Input Task Wait)), Limited (history (step p) (System.start w) inputs) := by
  refine ⟨?_,by decide +kernel,by decide +kernel,?_⟩
  · intro always
    have apart := List.pairwise_iff_getElem.mp (always latin enrolled codeAtOnce) 8 11 (by decide +kernel) (by decide +kernel)
      (by decide) "r"
    revert apart
    decide +kernel
  · intro always
    have split : history (step latin) (System.start enrolled) guessesAtOnce =
        history (step latin) (System.start enrolled) [.start 1 (enters "WXYZ-9876")] ++
          transition (step latin) (run (step latin) (System.start enrolled) [.start 1 (enters "WXYZ-9876")]) (.proceed 1 .ok) ::
            (history (step latin) (step latin (run (step latin) (System.start enrolled)
              [.start 1 (enters "WXYZ-9876")]) (.proceed 1 .ok)).2 guesses ++ []) := by
      rw [guessesAtOnce,history_append,List.append_nil]
      rfl
    have facts : (∀ u ∈ history (step latin) (step latin (run (step latin) (System.start enrolled)
          [.start 1 (enters "WXYZ-9876")]) (.proceed 1 .ok)).2 guesses,
        u.before.world.clock < 1700000000000 + RECOVERY_WINDOW_MS ∧ clears "a@b.c" u = false) ∧
        (history (step latin) (step latin (run (step latin) (System.start enrolled)
          [.start 1 (enters "WXYZ-9876")]) (.proceed 1 .ok)).2 guesses).countP (mistakes "a@b.c") = 4 := by decide +kernel
    have few := always latin enrolled guessesAtOnce _ _ _ [] "a@b.c" split ⟨⟨0,rfl⟩,rfl⟩ (fun u listed => (facts.1 u listed).1)
      fun u listed => (facts.1 u listed).2
    rw [facts.2] at few
    exact absurd few (by decide)

end StellarAlerts.MfaRecovery
