import StellarAlerts.Histories
import StellarAlerts.MaxRegisters
import StellarAlerts.OrderedMaps

/-!
Job states across regions. A synchronizer that is told a state of another region keeps its own
where the remote one is below it: unfinished against finished, or no larger in version and in
time. That is a preorder, not a total one, so that the cache is a register over it; regions
converge on the messages that have one largest and that are comparable (`job_states_converge`).
-/
namespace StellarAlerts.MultiRegionSync
open Histories
open MaxRegisters (take held)
open OrderedMaps

inductive JobState where
  | waiting
  | active
  | completed
  | failed
deriving DecidableEq, Repr

structure SyncedJobState where
  jobId : String
  originRegion : String
  state : JobState
  timestamp : Int
  dataHash : Option String
  version : Int
deriving DecidableEq, Repr

structure SyncConflictResolutionResult where
  winnerState : SyncedJobState
  isDuplicateDispatch : Bool
  resolvedAt : Int
deriving DecidableEq, Repr

structure MultiRegionStateSynchronizer where
  localRegion : String
  localStateCache : OrderedMap String SyncedJobState

def MultiRegionStateSynchronizer.new (localRegion : String) : MultiRegionStateSynchronizer := ⟨localRegion,.empty⟩
def MultiRegionStateSynchronizer.put (s : MultiRegionStateSynchronizer) (job : SyncedJobState) : MultiRegionStateSynchronizer :=
  { s with localStateCache := s.localStateCache.set job.jobId job }
def isTerminal (st : JobState) : Bool := st = .completed || st = .failed

def recordJobTransition (s : MultiRegionStateSynchronizer) (jobId : String) (state : JobState) (dataHash : Option String)
    (now : Int) : SyncedJobState × MultiRegionStateSynchronizer :=
  let version := match s.localStateCache.get jobId with
    | some existing => existing.version + 1
    | none => 1
  let updatedState : SyncedJobState := { jobId, originRegion := s.localRegion, state, timestamp := now, dataHash, version }
  (updatedState,s.put updatedState)

def reconcileRemoteJobState (s : MultiRegionStateSynchronizer) (remoteState : SyncedJobState) (now : Int) :
    SyncConflictResolutionResult × MultiRegionStateSynchronizer :=
  match s.localStateCache.get remoteState.jobId with
  | none =>
    (⟨remoteState,remoteState.state = .completed || remoteState.state = .active,now⟩,s.put remoteState)
  | some own =>
    if isTerminal own.state && !isTerminal remoteState.state then (⟨own,true,now⟩,s)
    else if isTerminal remoteState.state && !isTerminal own.state then (⟨remoteState,true,now⟩,s.put remoteState)
    else if remoteState.version > own.version || remoteState.timestamp > own.timestamp then
      (⟨remoteState,remoteState.state = .active && own.state = .active,now⟩,s.put remoteState)
    else (⟨own,own.state = .active && remoteState.state = .active,now⟩,s)

inductive Call where
  | recordJobTransition (jobId : String) (state : JobState) (dataHash : Option String) (now : Int)
  | reconcileRemoteJobState (remoteState : SyncedJobState) (now : Int)

inductive Answer where
  | recorded (state : SyncedJobState)
  | resolved (result : SyncConflictResolutionResult)

def step (s : MultiRegionStateSynchronizer) : Call → Answer × MultiRegionStateSynchronizer
  | .recordJobTransition jobId state dataHash now =>
    (.recorded (recordJobTransition s jobId state dataHash now).1,(recordJobTransition s jobId state dataHash now).2)
  | .reconcileRemoteJobState remoteState now =>
    (.resolved (reconcileRemoteJobState s remoteState now).1,(reconcileRemoteJobState s remoteState now).2)

/-- Not finished against finished, or no larger in version and in time. -/
def Below (a b : SyncedJobState) : Prop :=
  (isTerminal a.state = false ∧ isTerminal b.state = true) ∨
    (isTerminal a.state = isTerminal b.state ∧ a.version ≤ b.version ∧ a.timestamp ≤ b.timestamp)

instance : DecidableRel Below := fun _ _ => inferInstanceAs (Decidable (_ ∨ _))

theorem below_refl (a : SyncedJobState) : Below a a := .inr ⟨rfl,Int.le_refl _,Int.le_refl _⟩

theorem below_trans {a b c : SyncedJobState} (first : Below a b) (second : Below b c) : Below a c := by
  rcases first with ⟨low,high⟩ | ⟨same,versions,times⟩
  · rcases second with ⟨low',_⟩ | ⟨same',_,_⟩
    · rw [high] at low'
      cases low'
    · exact .inl ⟨low,same' ▸ high⟩
  · rcases second with ⟨low',high'⟩ | ⟨same',versions',times'⟩
    · exact .inl ⟨same.trans low',high'⟩
    · exact .inr ⟨same.trans same',Int.le_trans versions versions',Int.le_trans times times'⟩

instance : Preorder SyncedJobState where
  le := Below
  le_refl := below_refl
  le_trans _ _ _ := below_trans

instance : DecidableLE SyncedJobState := inferInstanceAs (DecidableRel Below)

theorem reconcile_cached (s : MultiRegionStateSynchronizer) (remoteState : SyncedJobState) (now : Int) :
    (reconcileRemoteJobState s remoteState now).2 =
      if (s.localStateCache.get remoteState.jobId).any fun own => decide (remoteState ≤ own) then s else s.put remoteState := by
  unfold reconcileRemoteJobState
  cases s.localStateCache.get remoteState.jobId with
  | none => rfl
  | some own =>
    have order : remoteState ≤ own ↔ Below remoteState own := Iff.rfl
    have newer : (own.version < remoteState.version ∨ own.timestamp < remoteState.timestamp) ↔
        ¬ (remoteState.version ≤ own.version ∧ remoteState.timestamp ≤ own.timestamp) := by omega
    simp only [Option.any_some,order,Below,gt_iff_lt,Bool.or_eq_true,decide_eq_true_eq,newer]
    cases isTerminal own.state <;> cases isTerminal remoteState.state <;>
      by_cases older : remoteState.version ≤ own.version ∧ remoteState.timestamp ≤ own.timestamp <;> simp [older]

abbrev Step := Transition MultiRegionStateSynchronizer Call Answer
def received (s : MultiRegionStateSynchronizer) (messages : List (SyncedJobState × Int)) : MultiRegionStateSynchronizer :=
  run step s (messages.map fun m => .reconcileRemoteJobState m.1 m.2)

/-- Synchronizers that start empty and receive the messages in any orders and any number of times have the same state. -/
def Converges (job : String) (messages : List SyncedJobState) : Prop :=
  ∀ (region other : String) (first second : List (SyncedJobState × Int)),
    (∀ m, m ∈ first.map Prod.fst ↔ m ∈ messages) → (∀ m, m ∈ second.map Prod.fst ↔ m ∈ messages) →
      (received (.new region) first).localStateCache.get job = (received (.new other) second).localStateCache.get job

/-- A message that was received before changes nothing. -/
def Stable (messages : List SyncedJobState) : Prop :=
  ∀ (region : String) (given : List (SyncedJobState × Int)), (∀ m ∈ given, m.1 ∈ messages) → ∀ m ∈ given, ∀ now,
    received (.new region) (given ++ [(m.1,now)]) = received (.new region) given

/-- A finished state of the job is replaced by one that is not. -/
def Reopens (job : String) (t : Step) : Prop :=
  ∃ was is, t.before.localStateCache.get job = some was ∧ isTerminal was.state = true ∧
    t.after.localStateCache.get job = some is ∧ isTerminal is.state = false

/-- A transition to waiting or active is recorded of a job that is finished. -/
def revives (s : MultiRegionStateSynchronizer) : Call → Bool
  | .recordJobTransition jobId state _ _ => !isTerminal state && (s.localStateCache.get jobId).any fun was => isTerminal was.state
  | _ => false

theorem received_concat (s : MultiRegionStateSynchronizer) (messages : List (SyncedJobState × Int)) (m : SyncedJobState × Int) :
    received s (messages ++ [m]) = (reconcileRemoteJobState (received s messages) m.1 m.2).2 := by
  rw [received,List.map_append,run_append]
  rfl

theorem get_put (s : MultiRegionStateSynchronizer) (m : SyncedJobState) (job : String) :
    (s.put m).localStateCache.get job = if job = m.jobId then some m else s.localStateCache.get job := get_set ..

theorem received_cached {job : String} (region : String) {messages : List (SyncedJobState × Int)}
    (own : ∀ m ∈ messages, m.1.jobId = job) :
    (received (.new region) messages).localStateCache.get job = held (messages.map Prod.fst) := by
  induction messages using List.reverseRecOn with
  | nil => rfl
  | append_singleton messages m ih =>
    have mine : m.1.jobId = job := own m (List.mem_append_right _ (List.mem_singleton_self _))
    have before := ih fun m listed => own m (List.mem_append_left _ listed)
    rw [received_concat,reconcile_cached,List.map_append,List.map_singleton,MaxRegisters.held_concat,mine,before]
    cases holds : held (messages.map Prod.fst) with
    | none => simp [get_put,mine,take]
    | some was =>
      by_cases below : m.1 ≤ was
      · simp [below,take,before,holds]
      · simp [below,take,get_put,mine]

variable {messages : List SyncedJobState}

theorem converges_iff {job : String} (own : ∀ m ∈ messages, m.jobId = job) :
    Converges job messages ↔ MaxRegisters.OneLargest messages := by
  rw [← MaxRegisters.converges_iff]
  constructor
  · intro converges first second covers also
    have timed : ∀ given : List SyncedJobState, (given.map fun m => (m,(0 : Int))).map Prod.fst = given := by
      intro given
      rw [List.map_map]
      exact List.map_id _
    have mine : ∀ {given : List SyncedJobState}, (∀ m, m ∈ given ↔ m ∈ messages) →
        ∀ m ∈ given.map fun m => (m,(0 : Int)), m.1.jobId = job := by
      intro given covers m listed
      obtain ⟨n,member,rfl⟩ := List.mem_map.mp listed
      exact own n ((covers n).mp member)
    have agree := converges "" "" (first.map fun m => (m,0)) (second.map fun m => (m,0))
      (by rw [timed]; exact covers) (by rw [timed]; exact also)
    rwa [received_cached "" (mine covers),received_cached "" (mine also),timed,timed] at agree
  · intro converges region other first second covers also
    have mine : ∀ {given : List (SyncedJobState × Int)}, (∀ m, m ∈ given.map Prod.fst ↔ m ∈ messages) →
        ∀ m ∈ given, m.1.jobId = job := fun covers m listed => own m.1 ((covers m.1).mp (List.mem_map_of_mem listed))
    rw [received_cached region (mine covers),received_cached other (mine also)]
    exact converges _ _ covers also

theorem stable_iff_ignored {job : String} (own : ∀ m ∈ messages, m.jobId = job) :
    Stable messages ↔ MaxRegisters.Comparable messages := by
  rw [← MaxRegisters.idempotent_iff]
  constructor
  · intro stable given among m listed
    have timed : (given.map fun m => (m,(0 : Int))).map Prod.fst = given := by
      rw [List.map_map]
      exact List.map_id _
    have mine : ∀ n ∈ (given.map fun m => (m,(0 : Int))) ++ [(m,(0 : Int))], n.1.jobId = job := by
      intro n member
      rcases List.mem_append.mp member with old | new
      · obtain ⟨other,there,rfl⟩ := List.mem_map.mp old
        exact own other (among other there)
      · rw [List.mem_singleton.mp new]
        exact own m (among m listed)
    have same := stable "" (given.map fun m => (m,0)) (fun n member => by
      obtain ⟨other,there,rfl⟩ := List.mem_map.mp member
      exact among other there) (m,0) (List.mem_map_of_mem listed) 0
    have cached := congrArg (fun s => s.localStateCache.get job) same
    simp only at cached
    rwa [received_cached "" mine,received_cached "" fun n member => mine n (List.mem_append_left _ member),List.map_append,
      timed,List.map_singleton] at cached
  · intro idempotent region given among m listed now
    have mine : ∀ n ∈ given, n.1.jobId = job := fun n member => own n.1 (among n member)
    have again := idempotent (given.map Prod.fst) (fun n member => by
      obtain ⟨other,there,rfl⟩ := List.mem_map.mp member
      exact among other there) m.1 (List.mem_map_of_mem listed)
    obtain ⟨was,holds⟩ := MaxRegisters.held_isSome (List.ne_nil_of_mem (List.mem_map_of_mem (f := Prod.fst) listed))
    rw [MaxRegisters.held_concat,holds] at again
    have below := MaxRegisters.le_of_take again
    have cached := received_cached region mine
    rw [holds] at cached
    rw [received_concat,reconcile_cached,mine m listed,cached]
    simp [below]

theorem reopens_iff (s : MultiRegionStateSynchronizer) (i : Call) :
    (∃ job, Reopens job (transition step s i)) ↔ revives s i = true := by
  cases i with
  | recordJobTransition jobId state dataHash now =>
    constructor
    · rintro ⟨job,was,is,before,finished,later,open_⟩
      simp only [transition,step,recordJobTransition,get_put] at before later
      split at later
      next own =>
        obtain rfl := Option.some.inj later
        simp only at open_
        simp [revives,open_,← own,before,finished]
      next =>
        rw [before] at later
        obtain rfl := Option.some.inj later
        rw [finished] at open_
        cases open_
    · intro revived
      obtain ⟨open_,known⟩ : isTerminal state = false ∧ (s.localStateCache.get jobId).any (fun was => isTerminal was.state) = true := by
        simpa [revives] using revived
      obtain ⟨was,found,finished⟩ : ∃ was, s.localStateCache.get jobId = some was ∧ isTerminal was.state = true := by
        cases found : s.localStateCache.get jobId with
        | none => simp [found] at known
        | some was => exact ⟨was,rfl,by simpa [found] using known⟩
      refine ⟨jobId,was,(recordJobTransition s jobId state dataHash now).1,found,finished,?_,?_⟩
      · simp only [transition,step,recordJobTransition,get_put]
        exact if_pos trivial
      · exact open_
  | reconcileRemoteJobState remoteState now =>
    have closed : ¬ ∃ job, Reopens job (transition step s (.reconcileRemoteJobState remoteState now)) := by
      rintro ⟨job,was,is,before,finished,later,open_⟩
      simp only [transition,step] at before later
      rw [reconcile_cached] at later
      split at later
      · rw [before] at later
        obtain rfl := Option.some.inj later
        rw [finished] at open_
        cases open_
      next newer =>
        rw [get_put] at later
        split at later
        next own =>
          obtain rfl := Option.some.inj later
          rw [← own,before] at newer
          exact newer (decide_eq_true (.inl ⟨open_,finished⟩))
        next =>
          rw [before] at later
          obtain rfl := Option.some.inj later
          rw [finished] at open_
          cases open_
    simp [revives,closed]

/-- One job's messages converge and are ignored the second time where one is the largest and all are comparable; and a
    run reopens no job where no transition to waiting or active is recorded of a finished one. -/
theorem job_states_converge (job : String) (messages : List SyncedJobState) (own : ∀ m ∈ messages, m.jobId = job)
    (s : MultiRegionStateSynchronizer) (calls : List Call) :
    ((Converges job messages ∧ Stable messages) ↔
      (messages = [] ∨ ∃ m ∈ messages, ∀ x ∈ messages, Below x m ∧ (Below m x → x = m)) ∧
        ∀ x ∈ messages, ∀ y ∈ messages, Below x y ∨ Below y x) ∧
    ((∀ t ∈ history step s calls, ∀ job, ¬ Reopens job t) ↔ ∀ t ∈ history step s calls, revives t.before t.input = false) := by
  refine ⟨and_congr (converges_iff own) (stable_iff_ignored own),forall_congr' fun t => forall_congr' fun listed => ?_⟩
  obtain ⟨before,i,rfl⟩ := mem_history listed
  rw [← not_exists,reopens_iff]
  exact Bool.not_eq_true _ ▸ Iff.rfl

def sampleState (state : JobState) (version timestamp : Int) : SyncedJobState := ⟨"job","eu",state,timestamp,none,version⟩

theorem job_states_converge_two :
    Converges "job" [sampleState .active 2 5,sampleState .completed 3 5] ∧
      Stable [sampleState .active 2 5,sampleState .completed 3 5] :=
  ((job_states_converge "job" [sampleState .active 2 5,sampleState .completed 3 5] (by decide) (.new "us") []).1).mpr
    ⟨.inr ⟨sampleState .completed 3 5,by decide,by decide⟩,by decide⟩

/-- A later version of an earlier time and an earlier version of a later time replace each other, and a finished
    job is recorded as waiting. -/
theorem job_states_diverge :
    ¬ Converges "job" [sampleState .waiting 1 2,sampleState .active 2 1] ∧
      ¬ Stable [sampleState .waiting 1 2,sampleState .active 2 1] ∧
      ∃ t ∈ history step (.new "us") [.recordJobTransition "job" .completed none 1,.recordJobTransition "job" .waiting none 2],
        Reopens "job" t := by
  refine ⟨fun converges => ?_,fun stable => ?_,?_⟩
  · have agree := converges "us" "eu" [(sampleState .waiting 1 2,0),(sampleState .active 2 1,0)]
      [(sampleState .active 2 1,0),(sampleState .waiting 1 2,0)] (fun m => Iff.rfl) (fun m => by simp [or_comm])
    revert agree
    decide
  · have same := stable "us" [(sampleState .waiting 1 2,0),(sampleState .active 2 1,0)] (by decide) (sampleState .waiting 1 2,0)
      (by decide) 0
    have cached := congrArg (fun s => s.localStateCache.get "job") same
    revert cached
    decide
  · refine ⟨_,List.mem_cons_of_mem _ (List.mem_cons_self ..),⟨"job","us",.completed,1,none,1⟩,⟨"job","us",.waiting,2,none,2⟩,?_⟩
    decide

end StellarAlerts.MultiRegionSync
