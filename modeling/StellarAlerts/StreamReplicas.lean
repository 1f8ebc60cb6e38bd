import StellarAlerts.PaymentStream
import StellarAlerts.RemoteCalls

/-!
Replicas that stream wallets. At most one replica streams a wallet, and only the one
with the lease processes its messages, in the runs where the key is there whenever a
replica asks for a wallet that another one still streams (`single_streaming`).
-/
namespace StellarAlerts.StreamReplicas
open Actions Horizon Watcher WalletLocks Redlock Histories RemoteCalls PaymentStream

variable {p : Platform}

/-- Redis, the clock, the lock managers and the streams of the replicas, and the tables that they share. -/
structure System (p : Platform) where
  now : Nat
  store : Store
  managers : Nat → DistributedLockManager
  streams : Nat → List (Wallet × Stream p)
  world : World p

def System.start (world : World p) : System p := ⟨0,fun _ => none,fun _ => .empty,fun _ => [],world⟩
def System.setManager (s : System p) (replica : Nat) (manager : DistributedLockManager) : System p :=
  { s with managers := fun other => if other = replica then manager else s.managers other }
def System.setStreams (s : System p) (replica : Nat) (streams : List (Wallet × Stream p)) : System p :=
  { s with streams := fun other => if other = replica then streams else s.streams other }

/-- What happens next: time passes, `startHorizonSSEStream` is called, the runtime calls into a stream, the function that it returned is
    called, a heartbeat is due, the signal handler releases a lease, the mutex of a wallet is taken or released, or a process ends. -/
inductive Event (p : Platform) where
  | elapse (ms : Nat)
  | start (replica : Nat) (wallet : Wallet) (value : String) (outcome : Outcome)
  | stream (replica i : Nat) (event : PaymentStream.Event p)
  | close (replica i : Nat) (outcome : Outcome)
  | heartbeat (replica lease : Nat) (outcome : Outcome)
  | releaseLease (replica : Nat) (walletId : String) (outcome : Outcome)
  | lockAttempt (walletId value : String) (outcome : Outcome)
  | lockRelease (walletId value : String) (outcome : Outcome)
  | exit (replica : Nat)

/-- The answer to a Redis command as its caller sees it, and the keys that it leaves. -/
def command {α : Type} (outcome : Outcome) (error : α) (store : Store) (carriedOut : α × Store) : α × Store :=
  match outcome with
  | .ok => carriedOut
  | .failed _ => (error,store)
  | .lost _ => (error,carriedOut.2)

def System.releaseWalletLock (s : System p) (replica : Nat) (walletId : String) (outcome : Outcome) : System p :=
  let store := match (s.managers replica).lease walletId with
    | none => s.store
    | some lock =>
      if lock.isReleased then s.store
      else (command outcome 0 s.store (evalRelease s.store s.now lock.key lock.value)).2
  { s with store }.setManager replica ((s.managers replica).released walletId)

/-- The lease is renewed while its heartbeat runs, which stops at the first renewal that does not succeed. -/
def System.heartbeat (s : System p) (replica i : Nat) (outcome : Outcome) : System p :=
  match (s.managers replica).locks[i]? with
  | none => s
  | some lock =>
    if lock.heartbeat = false then s
    else if lock.isReleased then
      s.setManager replica ((s.managers replica).setLock i { lock with heartbeat := false })
    else
      let renewed := command outcome 0 s.store (evalRenew s.store s.now lock.key lock.value lock.ttlMs)
      { s with store := renewed.2 }.setManager replica
        ((s.managers replica).setLock i { lock with heartbeat := decide (renewed.1 = 1) })

/-- The stream is opened once its lease is granted. -/
def System.startStream (s : System p) (replica : Nat) (wallet : Wallet) (value : String) (outcome : Outcome) : System p :=
  if wallet.publicKey = "" ∨ p.isValidEd25519PublicKey wallet.publicKey = false then s
  else
    let answer := command outcome .error s.store (setNX s.store s.now (getLockKey wallet.id) value DEFAULT_TTL_MS)
    let s := { s with store := answer.2 }.setManager replica
      ((s.managers replica).acquired answer.1 wallet.id value DEFAULT_TTL_MS)
    if answer.1 = .OK then s.setStreams replica (s.streams replica ++ [(wallet,Stream.start s.world)]) else s

variable (options : StartHorizonSSEStreamOptions)

def processes (wallet : Wallet) (stream : Stream p) : PaymentStream.Event p → Option String
  | .task _ _ => if stream.isClosed = false ∧ stream.processingChain ≠ [] then some wallet.id else none
  | _ => none

def System.runStream (s : System p) (replica i : Nat) (event : PaymentStream.Event p) :
    Option (Nat × String) × System p :=
  match (s.streams replica)[i]?, event with
  | none, _ => (none,s)
  | some _, .close => (none,s)
  | some (wallet,stream), event =>
    let stream' := (PaymentStream.step wallet options { stream with world := s.world } event).2
    ((processes wallet stream event).map fun walletId => (replica,walletId),
      { s with world := stream'.world }.setStreams replica ((s.streams replica).set i (wallet,stream')))

def System.close (s : System p) (replica i : Nat) (outcome : Outcome) : System p :=
  match (s.streams replica)[i]? with
  | none => s
  | some (wallet,stream) =>
    (s.setStreams replica ((s.streams replica).set i (wallet,PaymentStream.close stream))).releaseWalletLock
      replica wallet.id outcome

/-- One event; the answer is the replica that processes a message, and its wallet. -/
def step (s : System p) : Event p → Option (Nat × String) × System p
  | .elapse ms => (none,{ s with now := s.now + ms })
  | .start replica wallet value outcome => (none,s.startStream replica wallet value outcome)
  | .stream replica i event => s.runStream options replica i event
  | .close replica i outcome => (none,s.close replica i outcome)
  | .heartbeat replica i outcome => (none,s.heartbeat replica i outcome)
  | .releaseLease replica walletId outcome => (none,s.releaseWalletLock replica walletId outcome)
  | .lockAttempt walletId value outcome =>
    (none,{ s with store := (command outcome .error s.store
      (setNX s.store s.now (Mutex.getWalletLockKey walletId) value Mutex.DEFAULT_TTL_MS)).2 })
  | .lockRelease walletId value outcome =>
    (none,{ s with store := (command outcome 0 s.store
      (evalRelease s.store s.now (Mutex.getWalletLockKey walletId) value)).2 })
  | .exit replica => (none,(s.setManager replica .empty).setStreams replica [])

/-- The stream can have a connection to Horizon, now or later: it is not closed, or a
    connection is open, or a call of `connect` is still under way. -/
def Live (stream : Stream p) : Prop :=
  stream.isClosed = false ∨ stream.connections ≠ [] ∨ stream.connecting ≠ []

instance (stream : Stream p) : Decidable (Live stream) :=
  inferInstanceAs (Decidable (stream.isClosed = false ∨ stream.connections ≠ [] ∨ stream.connecting ≠ []))

theorem shut_step (wallet : Wallet) {stream : Stream p} (shut : ¬ Live stream) (event : PaymentStream.Event p) :
    ¬ Live (PaymentStream.step wallet options stream event).2 := by
  have closed : stream.isClosed = true := by
    by_contra isOpen
    exact shut (.inl (by simpa using isOpen))
  have noConnections : stream.connections = [] := by
    by_contra some
    exact shut (.inr (.inl some))
  have noCalls : stream.connecting = [] := by
    by_contra some
    exact shut (.inr (.inr some))
  cases event with
  | message id record => simpa [PaymentStream.step,message,noConnections] using shut
  | error id => simpa [PaymentStream.step,noConnections] using shut
  | task trial recent =>
    simp only [PaymentStream.step,runTask]
    split
    · exact shut
    · rw [if_pos closed]
      exact shut
  | timer timer =>
    simp only [PaymentStream.step]
    split
    · unfold connect
      rw [if_pos closed]
      exact shut
    · exact shut
  | cursor i fails latest => simpa [PaymentStream.step,readCursor,noCalls] using shut
  | opened i throws => simpa [PaymentStream.step,openConnection,noCalls] using shut
  | close =>
    rintro (isOpen | connected | calling)
    · cases isOpen
    · exact connected (by simp [PaymentStream.step,PaymentStream.close,cleanupCurrent,noConnections])
    · exact calling noCalls

theorem restart_isClosed (generation : Nat) (stream : Stream p) :
    (restartFromPersistedCursor generation stream).isClosed = stream.isClosed := by
  unfold restartFromPersistedCursor
  split <;> rfl

theorem schedule_isClosed (stream : Stream p) : (scheduleReconnect options stream).isClosed = stream.isClosed := by
  unfold scheduleReconnect
  split
  · rfl
  · split
    · split <;> rfl
    · rfl

theorem message_isClosed (id : Nat) (record : HorizonOperationRecord p.Operation) (stream : Stream p) :
    (message options id record stream).isClosed = stream.isClosed := by
  unfold message
  split
  · rfl
  · unfold onmessage enqueueMessage
    split
    · split
      · rw [restart_isClosed]
        rfl
      · rfl
    · rfl

theorem runTask_isClosed (wallet : Wallet) (trial : Trial p)
    (recent : List (HorizonOperationRecord p.Operation × Trial p)) (stream : Stream p) :
    (runTask wallet trial recent stream).isClosed = stream.isClosed := by
  unfold runTask
  split
  · rfl
  · split
    · rfl
    · split
      · rfl
      · rw [restart_isClosed]

theorem step_isClosed {wallet : Wallet} {stream : Stream p} {event : PaymentStream.Event p} (other : event ≠ .close) :
    (PaymentStream.step wallet options stream event).2.isClosed = stream.isClosed := by
  cases event with
  | message id record => exact message_isClosed options id record stream
  | error id =>
    simp only [PaymentStream.step]
    split
    · exact schedule_isClosed options (cleanupCurrent stream)
    · rfl
  | task trial recent => exact runTask_isClosed wallet trial recent stream
  | timer timer =>
    simp only [PaymentStream.step]
    split
    · unfold connect
      split <;> rfl
    · rfl
  | cursor i fails latest =>
    simp only [PaymentStream.step,readCursor]
    split
    · split
      · rfl
      · rw [schedule_isClosed]
    · rfl
  | opened i throws =>
    simp only [PaymentStream.step,openConnection]
    split
    · split
      · exact schedule_isClosed options _
      · rfl
    · rfl
  | close => exact absurd rfl other

def Streams (s : System p) (replica : Nat) (walletId : String) : Prop :=
  ∃ entry ∈ s.streams replica, entry.1.id = walletId ∧ Live entry.2
def Streaming (s : System p) (replica : Nat) (walletId : String) : Prop :=
  ∃ entry ∈ s.streams replica, entry.1.id = walletId ∧ entry.2.connections ≠ []

instance (s : System p) (replica : Nat) (walletId : String) : Decidable (Streams s replica walletId) :=
  inferInstanceAs (Decidable (∃ entry ∈ s.streams replica, entry.1.id = walletId ∧ Live entry.2))

instance (s : System p) (replica : Nat) (walletId : String) : Decidable (Streaming s replica walletId) :=
  inferInstanceAs (Decidable (∃ entry ∈ s.streams replica, entry.1.id = walletId ∧ entry.2.connections ≠ []))

/-- The key is there when a replica asks for the lease of a wallet that another one still streams. -/
def Kept (s : System p) : Event p → Prop
  | .start replica wallet _ .ok =>
    ∀ other, other ≠ replica → Streams s other wallet.id → s.store.get s.now (getLockKey wallet.id) ≠ none
  | _ => True

/-- One replica streams a wallet, and a replica that lists a lease has a stream that is not closed. -/
structure Inv (s : System p) : Prop where
  single : ∀ walletId r r', Streams s r walletId → Streams s r' walletId → r = r'
  leased : ∀ r walletId, (s.managers r).activeLocks walletId ≠ none →
    ∃ entry ∈ s.streams r, entry.1.id = walletId ∧ entry.2.isClosed = false

theorem inv_start (world : World p) : Inv (System.start world) where
  single := by
    rintro walletId r r' ⟨entry,listed,_⟩
    cases listed
  leased r walletId listed := absurd rfl listed

section Lists
variable {l : List (Wallet × Stream p)} {i : Nat} {wallet : Wallet} {stream stream' : Stream p} {walletId : String}

theorem live_of_set (found : l[i]? = some (wallet,stream)) (live : Live stream' → Live stream)
    (after : ∃ entry ∈ l.set i (wallet,stream'), entry.1.id = walletId ∧ Live entry.2) :
    ∃ entry ∈ l, entry.1.id = walletId ∧ Live entry.2 := by
  obtain ⟨entry,listed,isWallet,isLive⟩ := after
  rcases List.mem_or_eq_of_mem_set listed with old | rfl
  · exact ⟨entry,old,isWallet,isLive⟩
  · exact ⟨(wallet,stream),List.mem_of_getElem? found,isWallet,live isLive⟩

theorem open_of_set (found : l[i]? = some (wallet,stream))
    (kept : wallet.id = walletId → stream.isClosed = false → stream'.isClosed = false)
    (before : ∃ entry ∈ l, entry.1.id = walletId ∧ entry.2.isClosed = false) :
    ∃ entry ∈ l.set i (wallet,stream'), entry.1.id = walletId ∧ entry.2.isClosed = false := by
  obtain ⟨entry,listed,isWallet,isOpen⟩ := before
  obtain ⟨j,atIndex⟩ := List.mem_iff_getElem?.mp listed
  by_cases same : i = j
  · subst same
    rw [found] at atIndex
    cases atIndex
    refine ⟨(wallet,stream'),?_,isWallet,kept isWallet isOpen⟩
    exact List.mem_of_getElem? (List.getElem?_set_self (List.getElem?_eq_some_iff.mp found).1)
  · have still : (l.set i (wallet,stream'))[j]? = some entry := by
      rw [List.getElem?_set_ne same]
      exact atIndex
    exact ⟨entry,List.mem_of_getElem? still,isWallet,isOpen⟩

end Lists

theorem released_activeLocks {manager : DistributedLockManager} {walletId other : String}
    (listed : (manager.released walletId).activeLocks other ≠ none) :
    other ≠ walletId ∧ manager.activeLocks other ≠ none := by
  unfold DistributedLockManager.released at listed
  split at listed
  · rename_i unlisted
    refine ⟨?_,listed⟩
    rintro rfl
    exact listed unlisted
  · by_cases same : other = walletId
    · simp [same] at listed
    · simp only [same,if_false] at listed
      exact ⟨same,listed⟩

section Steps
variable {s : System p}

theorem Inv.shrink (inv : Inv s) {s' : System p} (streams : s'.streams = s.streams)
    (managers : ∀ r walletId, (s'.managers r).activeLocks walletId ≠ none → (s.managers r).activeLocks walletId ≠ none) :
    Inv s' where
  single walletId r r' := by
    unfold Streams
    rw [streams]
    exact inv.single walletId r r'
  leased r walletId listed := by
    rw [streams]
    exact inv.leased r walletId (managers r walletId listed)

variable {replica : Nat}

variable {manager : DistributedLockManager}

theorem setManager_activeLocks {r : Nat} {walletId : String}
    (listed : ((s.setManager replica manager).managers r).activeLocks walletId ≠ none) :
    r = replica ∧ manager.activeLocks walletId ≠ none ∨ r ≠ replica ∧ (s.managers r).activeLocks walletId ≠ none := by
  by_cases own : r = replica
  · simp only [System.setManager,own,if_true] at listed
    exact .inl ⟨own,listed⟩
  · simp only [System.setManager,own,if_false] at listed
    exact .inr ⟨own,listed⟩

theorem inv_releaseWalletLock (inv : Inv s) (replica : Nat) (walletId : String) (outcome : Outcome) :
    Inv (s.releaseWalletLock replica walletId outcome) := by
  refine inv.shrink rfl ?_
  intro r other listed
  rcases setManager_activeLocks listed with ⟨rfl,own⟩ | ⟨_,old⟩
  · exact (released_activeLocks own).2
  · exact old

theorem inv_heartbeat (inv : Inv s) (replica i : Nat) (outcome : Outcome) : Inv (s.heartbeat replica i outcome) := by
  have set : ∀ store lock, Inv ({ s with store }.setManager replica ((s.managers replica).setLock i lock)) := by
    intro store lock
    refine inv.shrink rfl ?_
    intro r other listed
    rcases setManager_activeLocks listed with ⟨rfl,own⟩ | ⟨_,old⟩
    · exact own
    · exact old
  unfold System.heartbeat
  split
  · exact inv
  · split
    · exact inv
    · split
      · exact set s.store _
      · exact set _ _

theorem Inv.setStream (inv : Inv s) {s' : System p} {i : Nat} {wallet : Wallet} {stream stream' : Stream p}
    (found : (s.streams replica)[i]? = some (wallet,stream))
    (streams : s'.streams = fun other => if other = replica then (s.streams replica).set i (wallet,stream') else s.streams other)
    (live : Live stream' → Live stream)
    (managers : ∀ r walletId, (s'.managers r).activeLocks walletId ≠ none → (s.managers r).activeLocks walletId ≠ none ∧
      (r = replica → wallet.id = walletId → stream.isClosed = false → stream'.isClosed = false)) :
    Inv s' := by
  have earlier : ∀ r walletId, Streams s' r walletId → Streams s r walletId := by
    intro r walletId streaming
    unfold Streams at streaming
    rw [streams] at streaming
    by_cases own : r = replica
    · simp only [own,if_true] at streaming
      rw [own]
      exact live_of_set found live streaming
    · simp only [own,if_false] at streaming
      exact streaming
  constructor
  · intro walletId r r' streaming streaming'
    exact inv.single walletId r r' (earlier r walletId streaming) (earlier r' walletId streaming')
  · intro r walletId listed
    obtain ⟨listedBefore,kept⟩ := managers r walletId listed
    have before := inv.leased r walletId listedBefore
    rw [streams]
    by_cases own : r = replica
    · simp only [own,if_true]
      rw [own] at before
      exact open_of_set found (kept own) before
    · simp only [own,if_false]
      exact before

theorem inv_runStream (inv : Inv s) (replica i : Nat) (event : PaymentStream.Event p) :
    Inv (s.runStream options replica i event).2 := by
  cases found : (s.streams replica)[i]? with
  | none =>
    unfold System.runStream
    rw [found]
    exact inv
  | some entry =>
    obtain ⟨wallet,stream⟩ := entry
    by_cases isClose : event = .close
    · subst isClose
      unfold System.runStream
      rw [found]
      exact inv
    · have moved : (s.runStream options replica i event).2 =
          { s with world := (PaymentStream.step wallet options { stream with world := s.world } event).2.world }.setStreams
            replica ((s.streams replica).set i
              (wallet,(PaymentStream.step wallet options { stream with world := s.world } event).2)) := by
        unfold System.runStream
        rw [found]
        cases event with
        | close => exact absurd rfl isClose
        | _ => rfl
      rw [moved]
      refine inv.setStream found rfl ?_ ?_
      · intro live
        by_contra shut
        have shutHere : ¬ Live { stream with world := s.world } := shut
        exact shut_step options wallet shutHere event live
      · intro r walletId listed
        refine ⟨listed,fun _ _ isOpen => ?_⟩
        rw [step_isClosed options isClose]
        exact isOpen

theorem inv_close (inv : Inv s) (replica i : Nat) (outcome : Outcome) : Inv (s.close replica i outcome) := by
  unfold System.close
  split
  · exact inv
  · rename_i wallet stream found
    refine inv.setStream found rfl ?_ ?_
    · intro live
      by_contra shut
      exact shut_step {} wallet shut .close live
    · intro r walletId listed
      rcases setManager_activeLocks listed with ⟨rfl,own⟩ | ⟨other,old⟩
      · obtain ⟨different,before⟩ := released_activeLocks own
        exact ⟨before,fun _ same => absurd same.symm different⟩
      · exact ⟨old,fun same => absurd same other⟩

theorem setNX_answer (store : Store) (now : Nat) (key value : String) (ttlMs : Nat) :
    (setNX store now key value ttlMs).1 = .OK ↔ store.get now key = none := by
  unfold setNX
  split
  · rename_i taken
    simp [taken]
  · rename_i untaken
    simp [untaken]

theorem granted {store : Store} {now : Nat} {key value : String} {ttlMs : Nat} {outcome : Outcome}
    (ok : (command outcome .error store (setNX store now key value ttlMs)).1 = .OK) :
    outcome = .ok ∧ store.get now key = none := by
  cases outcome with
  | ok => exact ⟨rfl,(setNX_answer store now key value ttlMs).mp ok⟩
  | failed message => cases ok
  | lost message => cases ok

theorem streams_started {store : Store} {r : Nat} {wallet : Wallet} {stream : Stream p} {walletId : String}
    (streaming : Streams (({ s with store }.setManager replica manager).setStreams replica (s.streams replica ++ [(wallet,stream)])) r walletId) :
    Streams s r walletId ∨ r = replica ∧ walletId = wallet.id := by
  obtain ⟨entry,listed,isWallet,isLive⟩ := streaming
  by_cases own : r = replica
  · simp only [System.setStreams,own,if_true] at listed
    rcases List.mem_append.mp listed with old | new
    · exact .inl ⟨entry,by rw [own]; exact old,isWallet,isLive⟩
    · rw [List.mem_singleton.mp new] at isWallet
      exact .inr ⟨own,isWallet.symm⟩
  · simp only [System.setStreams,System.setManager,own,if_false] at listed
    exact .inl ⟨entry,listed,isWallet,isLive⟩

theorem inv_startStream (inv : Inv s) {wallet : Wallet} {value : String} {outcome : Outcome}
    (kept : Kept s (.start replica wallet value outcome)) : Inv (s.startStream replica wallet value outcome) := by
  unfold System.startStream
  split
  · exact inv
  simp only
  split
  · rename_i ok
    obtain ⟨rfl,absent⟩ := granted ok
    -- the key was not there, so that no other replica streams the wallet
    have alone : ∀ other, Streams s other wallet.id → other = replica := by
      intro other streaming
      by_contra different
      exact kept other different streaming absent
    constructor
    · intro walletId r r' streaming streaming'
      rcases streams_started streaming with old | ⟨rfl,rfl⟩ <;> rcases streams_started streaming' with old' | ⟨new',same⟩
      · exact inv.single walletId r r' old old'
      · subst same
        rw [new']
        exact alone r old
      · exact (alone r' old').symm
      · exact new'.symm
    · intro r walletId listed
      by_cases own : r = replica
      · simp only [System.setStreams,System.setManager,own,if_true,DistributedLockManager.acquired,if_pos ok] at listed ⊢
        by_cases same : walletId = wallet.id
        · exact ⟨(wallet,Stream.start s.world),List.mem_append_right _ (List.mem_cons_self ..),same.symm,rfl⟩
        · simp only [same,if_false] at listed
          obtain ⟨entry,member,isWallet,isOpen⟩ := inv.leased replica walletId listed
          exact ⟨entry,List.mem_append_left _ member,isWallet,isOpen⟩
      · simp only [System.setStreams,System.setManager,own,if_false] at listed ⊢
        exact inv.leased r walletId listed
  · rename_i refused
    refine inv.shrink rfl ?_
    intro r walletId listed
    rcases setManager_activeLocks listed with ⟨rfl,own⟩ | ⟨_,old⟩
    · rwa [DistributedLockManager.acquired,if_neg refused] at own
    · exact old

theorem inv_exit (inv : Inv s) (replica : Nat) : Inv ((s.setManager replica .empty).setStreams replica []) := by
  have earlier : ∀ r walletId, Streams ((s.setManager replica .empty).setStreams replica []) r walletId →
      Streams s r walletId := by
    rintro r walletId ⟨entry,listed,isWallet,isLive⟩
    by_cases own : r = replica
    · simp [System.setStreams,own] at listed
    · simp only [System.setStreams,own,if_false] at listed
      exact ⟨entry,listed,isWallet,isLive⟩
  constructor
  · intro walletId r r' streaming streaming'
    exact inv.single walletId r r' (earlier r walletId streaming) (earlier r' walletId streaming')
  · intro r walletId listed
    by_cases own : r = replica
    · simp [System.setStreams,System.setManager,own,DistributedLockManager.empty] at listed
    · simp only [System.setStreams,System.setManager,own,if_false] at listed ⊢
      exact inv.leased r walletId listed

theorem inv_step {event : Event p} (kept : Kept s event) (inv : Inv s) : Inv (step options s event).2 := by
  cases event with
  | elapse ms => exact inv.shrink rfl fun _ _ => id
  | start replica wallet value outcome => exact inv_startStream inv kept
  | stream replica i event => exact inv_runStream options inv replica i event
  | close replica i outcome => exact inv_close inv replica i outcome
  | heartbeat replica i outcome => exact inv_heartbeat inv replica i outcome
  | releaseLease replica walletId outcome => exact inv_releaseWalletLock inv replica walletId outcome
  | lockAttempt walletId value outcome => exact inv.shrink rfl fun _ _ => id
  | lockRelease walletId value outcome => exact inv.shrink rfl fun _ _ => id
  | exit replica => exact inv_exit inv replica

theorem processing_streams {event : Event p} {walletId : String}
    (processed : (step options s event).1 = some (replica,walletId)) : Streams s replica walletId := by
  cases event with
  | stream r i event =>
    cases found : (s.streams r)[i]? with
    | none =>
      simp only [step,System.runStream,found] at processed
      cases processed
    | some entry =>
      obtain ⟨wallet,stream⟩ := entry
      cases event with
      | task trial recent =>
        simp only [step,System.runStream,found] at processed
        obtain ⟨other,isProcessed,same⟩ := Option.map_eq_some_iff.mp processed
        cases same
        simp only [processes] at isProcessed
        split at isProcessed
        · rename_i isOpen
          cases isProcessed
          exact ⟨(wallet,stream),List.mem_of_getElem? found,rfl,.inl isOpen.1⟩
        · cases isProcessed
      | _ =>
        simp only [step,System.runStream,found] at processed
        cases processed
  | _ => cases processed

end Steps

/-- At most one replica has a connection open for a wallet after the step, and a
    message is processed only where no other replica has the lease. -/
def Single (t : Transition (System p) (Event p) (Option (Nat × String))) : Prop :=
  (∀ walletId r r', Streaming t.after r walletId → Streaming t.after r' walletId → r = r') ∧
  ∀ r walletId, t.answer = some (r,walletId) → ∀ r', r' ≠ r → (t.before.managers r').activeLocks walletId = none

/-- One replica streams a wallet in every run in which the key is there whenever a
    replica asks for a wallet that another one still streams. -/
theorem single_streaming (world : World p) (events : List (Event p))
    (kept : ∀ t ∈ history (step options) (System.start world) events, Kept t.before t.input) :
    ∀ t ∈ history (step options) (System.start world) events, Single t := by
  intro t member
  obtain ⟨before,after⟩ := history_inv (fun s event => inv_step options) kept (inv_start world) t member
  constructor
  · rintro walletId r r' ⟨entry,listed,isWallet,connected⟩ ⟨entry',listed',isWallet',connected'⟩
    exact after.single walletId r r' ⟨entry,listed,isWallet,.inr (.inl connected)⟩
      ⟨entry',listed',isWallet',.inr (.inl connected')⟩
  · intro r walletId processed r' other
    obtain ⟨earlier,event,rfl⟩ := mem_history member
    by_contra leased
    obtain ⟨entry,listed,isWallet,isOpen⟩ := before.leased r' walletId leased
    exact other (before.single walletId r' r ⟨entry,listed,isWallet,.inl isOpen⟩ (processing_streams options processed))

/-- A replica starts the stream of the wallet and opens its connection. -/
def opens (replica : Nat) (value : String) : List (Event plain) :=
  [.start replica sampleWallet value .ok,.stream replica 0 (.cursor 0 (fun _ => none) "1000"),
    .stream replica 0 (.opened 0 false)]

def payment : HorizonOperationRecord plain.Operation := nativePayment "1001" "aa" "5" sampleWallet.publicKey

/-- A message arrives on the first connection of a replica, and is processed. -/
def takesIn (replica : Nat) : List (Event plain) :=
  [.stream replica 0 (.message 1 payment),.stream replica 0 (.task (calm "p1") [])]

/-- The second replica is refused while the first streams, and streams the wallet once the first has closed. -/
def handedOver : List (Event plain) :=
  opens 0 "70-a" ++ [.elapse 5000,.heartbeat 0 0 .ok,.elapse 12000,.start 1 sampleWallet "71-a" .ok] ++ takesIn 0 ++
    [.close 0 0 .ok] ++ opens 1 "71-b"

theorem handedOver_single :
    (∀ t ∈ history (step {}) (System.start World.empty) handedOver, Single t) ∧
      Streaming (run (step {}) (System.start World.empty) handedOver) 1 "w1" := by
  refine ⟨single_streaming {} World.empty handedOver ?_,by decide⟩
  simp only [handedOver,opens,takesIn,List.cons_append,List.nil_append,history_cons,history_nil,List.forall_mem_cons]
  refine ⟨?_,trivial,trivial,trivial,trivial,trivial,?_,trivial,trivial,trivial,?_,trivial,trivial,by simp⟩
  · rintro other different ⟨entry,listed,_⟩
    cases listed
  · intro other different streaming
    decide
  · intro other different streaming
    -- the stream of the first replica is shut, and no other replica has had one
    match other with
    | 0 => exact absurd streaming (by decide)
    | 1 => exact absurd rfl different
    | n + 2 =>
      obtain ⟨entry,listed,_⟩ := streaming
      cases listed

/-- A renewal fails, the key expires, and the second replica opens its connection. -/
def expired : List (Event plain) :=
  opens 0 "70-a" ++ [.elapse 5000,.heartbeat 0 0 (.failed "ETIMEDOUT"),.elapse 10000] ++ opens 1 "71-a"

/-- Every run has one replica for a wallet. -/
def AlwaysSingle : Prop :=
  ∀ (options : StartHorizonSSEStreamOptions) (world : World plain) (events : List (Event plain)),
    ∀ t ∈ history (step options) (System.start world) events, Single t

/-- Both replicas have a connection open, and the first goes on to process a message while the second has the lease. -/
theorem both_streaming :
    ¬ AlwaysSingle ∧
      ((run (step {}) (System.start World.empty) (expired ++ takesIn 0)).managers 1).activeLocks "w1" = some 0 ∧
      (history (step {}) (System.start World.empty) (expired ++ takesIn 0)).getLast?.bind (·.answer) =
        some (0,"w1") := by
  refine ⟨fun always => ?_,by decide,by decide⟩
  have last := (always {} World.empty expired (transition (step {})
    (run (step {}) (System.start World.empty) (expired.take 8)) (.stream 1 0 (.opened 0 false)))
    (by simp [expired,opens,run])).1 "w1" 0 1
  exact absurd (last (by decide) (by decide)) (by decide)

end StellarAlerts.StreamReplicas
