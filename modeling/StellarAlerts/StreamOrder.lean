import StellarAlerts.CoveredQueues
import StellarAlerts.StreamCursor

/-!
When the stream skips no record. The conditions here say when this cannot happen
(`Meets`), and under them every run keeps an invariant (`Tracked`).
-/
namespace StellarAlerts.PaymentStream
open Actions CursorRecovery Horizon Watcher WalletLocks Histories CoveredQueues

variable {p : Platform}

def Ascending (account : List (HorizonOperationRecord p.Operation)) : Prop :=
  account.Pairwise fun earlier later => reached (getHorizonPagingToken earlier) later = false

def InOrder (account : List (HorizonOperationRecord p.Operation)) (connection : Connection p)
    (record : HorizonOperationRecord p.Operation) : Prop :=
  connection.sent ++ [record] <+: account.filter fun other => !reached (some connection.cursor) other

/-- The calls of the recovery go through, and its window reaches back to the record that the gap was detected at. -/
structure Backfills (account : List (HorizonOperationRecord p.Operation)) (handling : Handling p) (world : World p) :
    Prop where
  calm : ∀ handled ∈ handling.window, handled.2.Calm
  unused : Unused world ((handling.record,handling.trial) :: handling.window)
  back : ∀ handled ∈ handling.window, ∀ record ∈ account, reached (getHorizonPagingToken handled.1) record = true →
    reached (getHorizonPagingToken handling.record) record = true ∨ record ∈ handling.window.map (·.1)

/-- What is asked of a task: nothing fails after its commit; a recovery backfills; and if it fails on a record that was not processed
    before, each message at or beyond the record that waits behind it has the record waiting once more before it, and each connection
    that has sent the record is closed by the failure, unless the record waits once more. -/
structure TaskMeets (wallet : Wallet) (account : List (HorizonOperationRecord p.Operation)) (s : Stream p)
    (task : Task p) (rest : List (Task p)) (handling : Handling p) : Prop where
  late : ∀ stage : Stage, stage.afterCommit = true → handling.trial.fails stage = none
  backfills : gapAhead ⟨wallet,handling.record,handling.trial⟩ false s.world = true →
    Backfills account handling s.world
  behind : ∀ error world, exec (processPaymentRecord wallet false handling) s.world = (.error error,world) →
    task.record ∉ s.processed → ∀ before q after, rest.map (·.record) = before ++ q :: after →
      reached (getHorizonPagingToken q) task.record = true → q = task.record ∨ task.record ∈ before
  senders : ∀ error world, exec (processPaymentRecord wallet false handling) s.world = (.error error,world) →
    task.record ∉ s.processed → ∀ connection ∈ s.connections, task.record ∈ connection.sent →
      task.record ∈ rest.map (·.record) ∨ s.currentClose = some connection.id ∧ task.generation = s.streamGeneration

/-- What is asked of an event: connections send in order, and a message that is dropped was processed, waits already, or comes from the
    current connection, which the drop closes; and a task is as `TaskMeets` says. -/
def Meets (wallet : Wallet) (options : StartHorizonSSEStreamOptions)
    (account : List (HorizonOperationRecord p.Operation)) (s : Stream p) : Event p → Prop
  | .message id record => ∀ connection ∈ s.connections, connection.id = id →
      InOrder account connection record ∧
      (s.isClosed = false → options.maxQueuedMessages ≤ s.processingChain.length →
        record ∈ s.processed ∨ record ∈ s.queued ∨
          s.currentClose = some id ∧ connection.generation = s.streamGeneration)
  | .task trial recent => ∀ task rest, s.processingChain = task :: rest → s.isClosed = false →
      TaskMeets wallet account s task rest (taskHandling task trial recent)
  | _ => True

/-- The cursor has not moved past a record whose processing failed and which was not processed otherwise; and a connection that is
    opened resumes before every message that has not been processed. -/
structure Unskipped (wallet : Wallet) (t : Transition (Stream p) (Event p) (Option String)) : Prop where
  cursor : ∀ record ∈ t.after.failed, record ∉ t.after.processed →
    reached (t.after.world.pagingToken wallet.id) record = false
  resumes : ∀ cursor, t.answer = some cursor → ∀ record ∈ t.after.delivered, record ∉ t.after.processed →
    reached (some cursor) record = false

/-- The account's records up to this cursor are processed, or lie before the cursor that the stream began at. -/
def Settled (account : List (HorizonOperationRecord p.Operation)) (base : String)
    (processed : List (HorizonOperationRecord p.Operation)) (cursor : String) : Prop :=
  ∀ record ∈ account, (reached (some base) record = true → reached (some cursor) record = true) ∧
    (reached (some cursor) record = true → record ∈ processed ∨ reached (some base) record = true)

def Before (account : List (HorizonOperationRecord p.Operation)) (base : String)
    (record earlier : HorizonOperationRecord p.Operation) : Prop :=
  earlier ∈ account ∧ reached (some base) earlier = false ∧ earlier ≠ record ∧
    reached (getHorizonPagingToken record) earlier = true

structure Tracked (wallet : Wallet) (account : List (HorizonOperationRecord p.Operation)) (base : String)
    (s : Stream p) : Prop where
  cursor : ∃ cursor, s.world.pagingToken wallet.id = some cursor ∧ Settled account base s.processed cursor
  reads : ∀ cursor, some cursor ∈ s.connecting → Settled account base s.processed cursor
  starts : ∀ connection ∈ s.connections, Settled account base s.processed connection.cursor
  listed : ∀ record, record ∈ s.delivered ∨ record ∈ s.queued ∨ record ∈ s.failed →
    record ∈ account ∧ reached (some base) record = false
  waiting : s.isClosed = false → Covered (Before account base) (· ∈ s.processed) s.queued
  sent : s.isClosed = false → ∀ connection ∈ s.connections, ∀ record ∈ connection.sent,
    record ∈ s.processed ∨ record ∈ s.queued

structure Unseen (wallet : Wallet) (s : Stream p) : Prop where
  cursor : s.world.pagingToken wallet.id = none
  reads : ∀ cursor, some cursor ∉ s.connecting
  connections : s.connections = []
  chain : s.processingChain = []
  delivered : s.delivered = []
  failed : s.failed = []

/-- The parts of the stream that open nothing and process nothing: they may close connections and give up attempts to connect. -/
structure Trims (s s' : Stream p) : Prop where
  world : s'.world = s.world
  isClosed : s'.isClosed = false → s.isClosed = false
  chain : s'.processingChain = s.processingChain
  reads : ∀ cursor, some cursor ∈ s'.connecting → some cursor ∈ s.connecting
  connections : ∀ connection ∈ s'.connections, connection ∈ s.connections
  delivered : s'.delivered = s.delivered
  processed : s'.processed = s.processed
  failed : s'.failed = s.failed

theorem trims_refl (s : Stream p) : Trims s s := ⟨rfl,id,rfl,fun _ => id,fun _ => id,rfl,rfl,rfl⟩

theorem trims_trans {a b c : Stream p} (first : Trims a b) (second : Trims b c) : Trims a c where
  world := second.world.trans first.world
  isClosed := fun isOpen => first.isClosed (second.isClosed isOpen)
  chain := second.chain.trans first.chain
  reads := fun cursor member => first.reads cursor (second.reads cursor member)
  connections := fun connection member => first.connections connection (second.connections connection member)
  delivered := second.delivered.trans first.delivered
  processed := second.processed.trans first.processed
  failed := second.failed.trans first.failed

theorem trims_cleanup (s : Stream p) : Trims s (cleanupCurrent s) :=
  ⟨rfl,id,rfl,fun _ => id,fun _ member => List.mem_of_mem_filter member,rfl,rfl,rfl⟩

theorem trims_restart (generation : Nat) (s : Stream p) : Trims s (restartFromPersistedCursor generation s) := by
  unfold restartFromPersistedCursor
  split
  · exact trims_refl s
  · exact trims_trans (trims_cleanup s) ⟨rfl,id,rfl,fun _ => id,fun _ => id,rfl,rfl,rfl⟩

theorem trims_schedule (options : StartHorizonSSEStreamOptions) (s : Stream p) : Trims s (scheduleReconnect options s) := by
  have again : Trims s (setReconnect { s with failureCount := s.failureCount + 1 }) :=
    ⟨rfl,id,rfl,fun _ => id,fun _ => id,rfl,rfl,rfl⟩
  unfold scheduleReconnect
  split
  · exact trims_refl s
  · split
    · split
      · exact trims_refl s
      · exact again
    · exact again

theorem trims_connect (s : Stream p) : Trims s (connect s) := by
  unfold connect
  split
  · exact trims_refl s
  · refine trims_trans (trims_cleanup s) ⟨rfl,id,rfl,fun cursor member => ?_,fun _ => id,rfl,rfl,rfl⟩
    show some cursor ∈ s.connecting
    simpa using member

theorem tracked_trims {wallet : Wallet} {account : List (HorizonOperationRecord p.Operation)} {base : String}
    {s s' : Stream p} (tracked : Tracked wallet account base s) (trims : Trims s s') : Tracked wallet account base s' where
  cursor := by rw [trims.world,trims.processed]; exact tracked.cursor
  reads := fun cursor member => by rw [trims.processed]; exact tracked.reads cursor (trims.reads cursor member)
  starts := fun connection member => by
    rw [trims.processed]
    exact tracked.starts connection (trims.connections connection member)
  listed := by
    rw [trims.delivered,Stream.queued,trims.chain,trims.failed]
    exact tracked.listed
  waiting := fun isOpen => by
    rw [trims.processed,Stream.queued,trims.chain]
    exact tracked.waiting (trims.isClosed isOpen)
  sent := fun isOpen connection member => by
    rw [trims.processed,Stream.queued,trims.chain]
    exact tracked.sent (trims.isClosed isOpen) connection (trims.connections connection member)

theorem unseen_trims {wallet : Wallet} {s s' : Stream p} (unseen : Unseen wallet s) (trims : Trims s s') :
    Unseen wallet s' where
  cursor := by rw [trims.world]; exact unseen.cursor
  reads := fun cursor member => unseen.reads cursor (trims.reads cursor member)
  connections := List.eq_nil_iff_forall_not_mem.mpr fun connection member => by
    have listed := trims.connections connection member
    rw [unseen.connections] at listed
    cases listed
  chain := trims.chain.trans unseen.chain
  delivered := trims.delivered.trans unseen.delivered
  failed := trims.failed.trans unseen.failed

section Events
variable {wallet : Wallet} {options : StartHorizonSSEStreamOptions}
  {account : List (HorizonOperationRecord p.Operation)} {base : String}

variable {processed : List (HorizonOperationRecord p.Operation)}

theorem settled_mono {more : List (HorizonOperationRecord p.Operation)} {cursor : String}
    (settled : Settled account base processed cursor) (within : ∀ record ∈ processed, record ∈ more) :
    Settled account base more cursor :=
  fun record member => ⟨(settled record member).1,fun passed =>
    ((settled record member).2 passed).imp_left (within record)⟩

variable {connection : Connection p}

/-- A record that a connection sends in order is one of the account, ahead of the
    connection's cursor, and the connection has sent those between. -/
theorem inOrder_facts (ascending : Ascending account) {record : HorizonOperationRecord p.Operation}
    (inOrder : InOrder account connection record) :
    record ∈ account ∧ reached (some connection.cursor) record = false ∧
      ∀ other ∈ account, reached (some connection.cursor) other = false → other ≠ record →
        reached (getHorizonPagingToken record) other = true → other ∈ connection.sent := by
  obtain ⟨later,split⟩ := inOrder
  have ahead : record ∈ account.filter fun other => !reached (some connection.cursor) other := by
    rw [← split]
    simp
  rw [List.mem_filter,Bool.not_eq_true'] at ahead
  refine ⟨ahead.1,ahead.2,fun other member unreached different passed => ?_⟩
  have placed : other ∈ connection.sent ++ [record] ++ later := by
    rw [split]
    exact List.mem_filter.mpr ⟨member,by simp [unreached]⟩
  rw [List.mem_append,List.mem_append,List.mem_singleton] at placed
  rcases placed with (sent | same) | after
  · exact sent
  · exact absurd same different
  · have order : (connection.sent ++ [record] ++ later).Pairwise fun earlier later =>
        reached (getHorizonPagingToken earlier) later = false := by
      rw [split]
      exact ascending.sublist List.filter_sublist
    have behind := (List.pairwise_append.mp order).2.2 record (by simp) other after
    rw [behind] at passed
    cases passed

variable {s : Stream p}

section
variable (tracked : Tracked wallet account base s)
include tracked

theorem tracked_delivered {record : HorizonOperationRecord p.Operation}
    (fits : record ∈ account ∧ reached (some base) record = false) :
    Tracked wallet account base { s with delivered := s.delivered ++ [record] } := by
  refine ⟨tracked.cursor,tracked.reads,tracked.starts,fun other member => ?_,tracked.waiting,tracked.sent⟩
  simp only [List.mem_append,List.mem_singleton] at member
  rcases member with (before | rfl) | rest
  · exact tracked.listed other (Or.inl before)
  · exact fits
  · exact tracked.listed other (Or.inr rest)

theorem tracked_sends (source : Nat) {record : HorizonOperationRecord p.Operation}
    (fits : record ∈ account ∧ reached (some base) record = false)
    (placed : s.isClosed = false → record ∈ s.processed ∨ record ∈ s.queued) :
    Tracked wallet account base (s.sends source record) := by
  have noted := tracked_delivered tracked fits
  refine ⟨noted.cursor,noted.reads,fun connection member => ?_,noted.listed,noted.waiting,?_⟩
  · obtain ⟨old,listed,rfl⟩ := List.mem_map.mp member
    have start := tracked.starts old listed
    unfold Connection.send
    split
    · exact start
    · exact start
  · intro isOpen connection member other sent
    obtain ⟨old,listed,rfl⟩ := List.mem_map.mp member
    unfold Connection.send at sent
    split at sent
    · rw [List.mem_append,List.mem_singleton] at sent
      rcases sent with before | rfl
      · exact tracked.sent isOpen old listed other before
      · exact placed isOpen
    · exact tracked.sent isOpen old listed other sent

theorem tracked_enqueue {record : HorizonOperationRecord p.Operation}
    (generation : Nat) (fits : record ∈ account ∧ reached (some base) record = false)
    (needs : s.isClosed = false → ∀ other, Before account base record other → other ∈ s.processed ∨ other ∈ s.queued) :
    Tracked wallet account base { s with processingChain := s.processingChain ++ [⟨record,generation⟩] } where
  cursor := tracked.cursor
  reads := tracked.reads
  starts := tracked.starts
  listed := by
    intro other member
    simp only [Stream.queued,List.map_append,List.map_cons,List.map_nil,List.mem_append,List.mem_singleton] at member
    rcases member with delivered | (queued | rfl) | failed
    · exact tracked.listed other (Or.inl delivered)
    · exact tracked.listed other (Or.inr (Or.inl queued))
    · exact fits
    · exact tracked.listed other (Or.inr (Or.inr failed))
  waiting := by
    intro isOpen
    simp only [Stream.queued,List.map_append,List.map_cons,List.map_nil]
    exact covered_concat (tracked.waiting isOpen) (needs isOpen)
  sent := by
    intro isOpen connection member other sent
    refine (tracked.sent isOpen connection member other sent).imp_right fun queued => ?_
    simp only [Stream.queued,List.map_append] at queued ⊢
    exact List.mem_append_left _ queued

end

theorem trims_resets (s : Stream p) : Trims s (resetBackoff (resetHeartbeat s)) :=
  ⟨rfl,id,rfl,fun _ => id,fun _ => id,rfl,rfl,rfl⟩

theorem trims_full (full : options.maxQueuedMessages ≤ s.processingChain.length) (record : HorizonOperationRecord p.Operation)
    (generation : Nat) : Trims s (enqueueMessage options record generation s) := by
  rw [enqueueMessage,if_pos full]
  split
  · exact trims_restart generation s
  · exact trims_refl s

variable {source : Nat}

theorem kept_drop {generation : Nat} {record : HorizonOperationRecord p.Operation}
    (full : options.maxQueuedMessages ≤ s.processingChain.length) (isOpen : s.isClosed = false)
    (current : s.currentClose = some source) (same : generation = s.streamGeneration) :
    ∀ connection ∈ (enqueueMessage options record generation
      (resetBackoff (resetHeartbeat (s.sends source record)))).connections, connection ∈ s.connections := by
  intro connection member
  simp only [enqueueMessage,restartFromPersistedCursor,resetBackoff,resetHeartbeat,Stream.sends,full,isOpen,same,
    setReconnect,cleanupCurrent,current,↓reduceIte,and_self,ne_eq,not_true_eq_false,or_self,reduceCtorEq,
    Option.some.injEq,decide_not,List.mem_filter,List.mem_map,Bool.not_eq_true',decide_eq_false_iff_not] at member
  obtain ⟨⟨old,listed,rfl⟩,other⟩ := member
  unfold Connection.send at other ⊢
  split
  next own => simp [own] at other
  next => exact listed

theorem tracked_dropped {s' : Stream p} (tracked : Tracked wallet account base s)
    {record : HorizonOperationRecord p.Operation} (fits : record ∈ account ∧ reached (some base) record = false)
    (trims : Trims (s.sends source record) s') (kept : ∀ connection ∈ s'.connections, connection ∈ s.connections) :
    Tracked wallet account base s' := by
  refine tracked_trims (tracked_delivered tracked fits) ?_
  exact ⟨trims.world,trims.isClosed,trims.chain,trims.reads,kept,trims.delivered,trims.processed,trims.failed⟩

/-- A message that is sent in order joins the chain behind all it comes after; one
    that is dropped leaves no connection that counts on it. -/
theorem tracked_message (ascending : Ascending account) {record : HorizonOperationRecord p.Operation}
    (tracked : Tracked wallet account base s) (meets : Meets wallet options account s (.message source record)) :
    Tracked wallet account base (message options source record s) := by
  unfold message
  cases found : s.connections.find? (·.id = source) with
  | none => exact tracked
  | some connection =>
    have listed := List.mem_of_find?_eq_some found
    obtain ⟨inOrder,dropped⟩ := meets connection listed (by simpa using List.find?_some found)
    obtain ⟨member,unreached,between⟩ := inOrder_facts ascending inOrder
    have start := tracked.starts connection listed
    have fits : record ∈ account ∧ reached (some base) record = false := by
      refine ⟨member,?_⟩
      rw [← Bool.not_eq_true]
      intro before
      rw [(start record member).1 before] at unreached
      cases unreached
    by_cases full : options.maxQueuedMessages ≤ s.processingChain.length
    · have trims : Trims (s.sends source record) (onmessage options connection record (s.sends source record)) := by
        have reset := trims_resets (s.sends source record)
        refine trims_trans reset (trims_full ?_ record connection.generation)
        rw [reset.chain]
        exact full
      by_cases isOpen : s.isClosed = false
      · rcases dropped isOpen full with placed | placed | ⟨current,same⟩
        · exact tracked_trims (tracked_sends tracked source fits fun _ => Or.inl placed) trims
        · exact tracked_trims (tracked_sends tracked source fits fun _ => Or.inr placed) trims
        · exact tracked_dropped tracked fits trims (kept_drop full isOpen current same)
      · exact tracked_trims (tracked_sends tracked source fits fun open_ => absurd open_ isOpen) trims
    · have queues : onmessage options connection record (s.sends source record) =
          { resetBackoff (resetHeartbeat (s.sends source record)) with
            processingChain := s.processingChain ++ [⟨record,connection.generation⟩] } := if_neg full
      have needs : s.isClosed = false → ∀ other, Before account base record other →
          other ∈ s.processed ∨ other ∈ s.queued := by
        rintro isOpen other ⟨known,ahead,different,passed⟩
        -- Up to the connection's cursor all is settled; what lies between was sent on this connection.
        by_cases early : reached (some connection.cursor) other = true
        · rcases (start other known).2 early with processed | before
          · exact Or.inl processed
          · rw [before] at ahead
            cases ahead
        · exact tracked.sent isOpen connection listed other
            (between other known (by simpa using early) different passed)
      have queued := tracked_enqueue tracked connection.generation fits needs
      refine tracked_trims (tracked_sends queued source fits fun _ => Or.inr (by simp [Stream.queued])) ?_
      simp only [queues]
      exact ⟨rfl,id,rfl,fun _ => id,fun _ => id,rfl,rfl,rfl⟩

variable {task : Task p}

theorem queued_cons {rest : List (Task p)} (chain : s.processingChain = task :: rest) :
    s.queued = task.record :: rest.map (·.record) := by
  rw [Stream.queued,chain,List.map_cons]

/-- The first task goes through: all that the records it has taken in come after is
    processed, so that the cursor may stand at any of them. -/
theorem tracked_done {rest : List (Task p)} (chain : s.processingChain = task :: rest) (isOpen : s.isClosed = false)
    (tracked : Tracked wallet account base s) {taken : List (HorizonOperationRecord p.Operation)} {world : World p}
    (moves : Moves wallet.id taken s.world world) (own : task.record ∈ taken)
    (back : ∀ record ∈ taken, ∀ other ∈ account, reached (getHorizonPagingToken record) other = true →
      reached (getHorizonPagingToken task.record) other = true ∨ other ∈ taken) :
    Tracked wallet account base { s with world, processingChain := rest, processed := s.processed ++ taken } := by
  have covered := tracked.waiting isOpen
  have queued := queued_cons chain
  rw [queued] at covered
  have more : ∀ record ∈ s.processed, record ∈ s.processed ++ taken := fun record => List.mem_append_left taken
  have passed : ∀ other ∈ account, reached (getHorizonPagingToken task.record) other = true →
      other ∈ s.processed ++ taken ∨ reached (some base) other = true := by
    intro other member reaches
    by_cases before : reached (some base) other = true
    · exact Or.inr before
    by_cases same : other = task.record
    · rw [same]
      exact Or.inl (List.mem_append_right _ own)
    · exact Or.inl (more other (covered_head covered ⟨member,by simpa using before,same,reaches⟩))
  constructor
  case cursor =>
    obtain ⟨cursor,stands,settled⟩ := tracked.cursor
    rcases moves with same | ⟨record,member,token,found,moved,above⟩
    · exact ⟨cursor,same.trans stands,settled_mono settled more⟩
    · refine ⟨token,moved,fun other known => ⟨fun before => ?_,fun reaches => ?_⟩⟩
      · exact reached_of_atLeast (above cursor stands) ((settled other known).1 before)
      · rw [← found] at reaches
        rcases back record member other known reaches with own | listed
        · exact passed other known own
        · exact Or.inl (List.mem_append_right _ listed)
  case reads => exact fun cursor member => settled_mono (tracked.reads cursor member) more
  case starts => exact fun connection member => settled_mono (tracked.starts connection member) more
  case listed =>
    intro record member
    refine tracked.listed record (member.imp_right (Or.imp_left fun waits => ?_))
    rw [queued]
    exact List.mem_cons_of_mem _ waits
  case waiting =>
    intro _
    refine covered_tail (covered_mono more covered) fun before q after split needed => Or.inl ?_
    exact List.mem_append_right _ own
  case sent =>
    intro _ connection member record sent
    have placed := tracked.sent isOpen connection member record sent
    rw [queued,List.mem_cons] at placed
    rcases placed with processed | rfl | waits
    · exact Or.inl (more record processed)
    · exact Or.inl (List.mem_append_right _ own)
    · exact Or.inr waits

theorem tracked_failed {rest : List (Task p)} (chain : s.processingChain = task :: rest) (isOpen : s.isClosed = false)
    (tracked : Tracked wallet account base s)
    (behind : task.record ∉ s.processed → ∀ before q after, rest.map (·.record) = before ++ q :: after →
      reached (getHorizonPagingToken q) task.record = true → q = task.record ∨ task.record ∈ before)
    {kept : List (Connection p)} (within : ∀ connection ∈ kept, connection ∈ s.connections)
    (senders : task.record ∉ s.processed → ∀ connection ∈ kept, task.record ∈ connection.sent →
      task.record ∈ rest.map (·.record)) :
    Tracked wallet account base
      { s with processingChain := rest, connections := kept, failed := s.failed ++ [task.record] } := by
  have covered := tracked.waiting isOpen
  have queued := queued_cons chain
  rw [queued] at covered
  refine ⟨tracked.cursor,tracked.reads,fun connection member => tracked.starts connection (within connection member),?_,
    ?_,?_⟩
  · intro record member
    rw [List.mem_append,List.mem_singleton] at member
    rcases member with delivered | waits | failed | rfl
    · exact tracked.listed record (Or.inl delivered)
    · exact tracked.listed record (Or.inr (Or.inl (by rw [queued]; exact List.mem_cons_of_mem _ waits)))
    · exact tracked.listed record (Or.inr (Or.inr failed))
    · exact tracked.listed task.record (Or.inr (Or.inl (by rw [queued]; exact List.mem_cons_self)))
  · intro _
    refine covered_tail covered fun before q after split needed => ?_
    by_cases processed : task.record ∈ s.processed
    · exact Or.inl processed
    · right
      rcases behind processed before q after split needed.2.2.2 with same | again
      · exact absurd same.symm needed.2.2.1
      · exact again
  · intro _ connection member record sent
    have placed := tracked.sent isOpen connection (within connection member) record sent
    rw [queued,List.mem_cons] at placed
    rcases placed with processed | rfl | waits
    · exact Or.inl processed
    · by_cases processed : task.record ∈ s.processed
      · exact Or.inl processed
      · exact Or.inr (senders processed connection member sent)
    · exact Or.inr waits

theorem tracked_discard {rest : List (Task p)} (chain : s.processingChain = task :: rest) (closed : s.isClosed = true)
    (tracked : Tracked wallet account base s) : Tracked wallet account base { s with processingChain := rest } where
  cursor := tracked.cursor
  reads := tracked.reads
  starts := tracked.starts
  listed := by
    intro record member
    refine tracked.listed record (member.imp_right (Or.imp_left fun waits => ?_))
    rw [queued_cons chain]
    exact List.mem_cons_of_mem _ waits
  waiting := fun isOpen => by simp [closed] at isOpen
  sent := fun isOpen => by simp [closed] at isOpen

theorem kept_restart {generation : Nat} (isOpen : s.isClosed = false) (current : s.currentClose = some connection.id)
    (same : generation = s.streamGeneration) : connection ∉ (restartFromPersistedCursor generation s).connections := by
  intro member
  simp [restartFromPersistedCursor,isOpen,same,setReconnect,cleanupCurrent,current] at member

theorem tracked_task (tracked : Tracked wallet account base s) {trial : Trial p}
    {recent : List (HorizonOperationRecord p.Operation × Trial p)}
    (meets : Meets wallet options account s (.task trial recent)) :
    Tracked wallet account base (runTask wallet trial recent s) := by
  unfold runTask
  cases chain : s.processingChain with
  | nil => exact tracked
  | cons task rest =>
    dsimp only
    split
    next closed => exact tracked_discard chain closed tracked
    next notClosed =>
      have isOpen : s.isClosed = false := by simpa using notClosed
      have asked := meets task rest chain isOpen
      have ends : Ends _ _ _ := ends_task asked.late fun gap => ⟨(asked.backfills gap).calm,(asked.backfills gap).unused⟩
      cases ran : exec (processPaymentRecord wallet false (taskHandling task trial recent)) s.world with
      | mk outcome world =>
        rw [ends_of_exec ran] at ends
        cases outcome with
        | ok =>
          refine tracked_done chain isOpen tracked ends (mem_takenIn.mpr (Or.inl rfl)) ?_
          intro record member other known reaches
          rcases mem_takenIn.mp member with rfl | ⟨gap,listed⟩
          · exact Or.inl reaches
          · obtain ⟨handled,inWindow,rfl⟩ := List.mem_map.mp listed
            exact ((asked.backfills gap).back handled inWindow other known reaches).imp_right
              fun found => mem_takenIn.mpr (Or.inr ⟨gap,found⟩)
        | error error =>
          obtain rfl : world = s.world := ends
          -- The restart decides which connections stay open, so they are taken after it.
          have trims := trims_restart task.generation { s with processingChain := rest, failed := s.failed ++ [task.record] }
          refine tracked_trims (tracked_failed chain isOpen tracked (asked.behind error _ ran) trims.connections ?_)
            ⟨trims.world,trims.isClosed,trims.chain,trims.reads,fun _ => id,trims.delivered,trims.processed,trims.failed⟩
          intro unprocessed connection member sent
          refine (asked.senders error _ ran unprocessed connection (trims.connections connection member) sent).resolve_right ?_
          rintro ⟨current,same⟩
          exact kept_restart (s := { s with processingChain := rest, failed := s.failed ++ [task.record] }) isOpen current
            same member

theorem ends_ensureCursor {fails : CatchUpStage → Option String} {latest : String} {world : World p} :
    Ends (ensureCursor wallet fails latest) world (fun outcome world' =>
      match outcome with
      | .error _ => world' = world
      | .ok cursor => world'.pagingToken wallet.id = some cursor ∧
          (world' = world ∨ world.pagingToken wallet.id = none)) := by
  rw [ensureCursor,ends_bind,ends_reach]
  cases fails .findCursor with
  | some error => exact rfl
  | none =>
    simp only [ends_bind,ends_get]
    cases found : world.ingestionCursor wallet.id with
    | some cursor => exact ends_pure.mpr ⟨by simp [World.pagingToken,found],Or.inl rfl⟩
    | none =>
      simp only [ends_bind,ends_reach]
      cases fails .getLatestPagingToken with
      | some error => exact trivial
      | none =>
        cases fails .upsertCursor with
        | some error => exact trivial
        | none => exact ⟨setCursor_token ..,Or.inr (by simp [World.pagingToken,found])⟩

/-- The invariant: the wallet has no cursor yet, or the stream keeps track. -/
def Sound (wallet : Wallet) (account : List (HorizonOperationRecord p.Operation)) (s : Stream p) : Prop :=
  Unseen wallet s ∨ ∃ base, Tracked wallet account base s

theorem sound_trims {s' : Stream p} (sound : Sound wallet account s) (trims : Trims s s') : Sound wallet account s' := by
  rcases sound with unseen | ⟨base,tracked⟩
  · exact Or.inl (unseen_trims unseen trims)
  · exact Or.inr ⟨base,tracked_trims tracked trims⟩

theorem settled_base (processed : List (HorizonOperationRecord p.Operation)) : Settled account base processed base :=
  fun _ _ => ⟨id,Or.inr⟩

theorem sound_cursor (sound : Sound wallet account s) (i : Nat) (fails : CatchUpStage → Option String) (latest : String) :
    Sound wallet account (readCursor wallet options i fails latest s) := by
  unfold readCursor
  split
  next =>
    have ends : Ends _ _ _ := @ends_ensureCursor p wallet fails latest s.world
    cases ran : exec (ensureCursor wallet fails latest) s.world with
    | mk outcome world =>
      rw [ends_of_exec ran] at ends
      cases outcome with
      | error error =>
        obtain rfl : world = s.world := ends
        refine sound_trims (sound_trims sound ?_) (trims_schedule options _)
        exact ⟨rfl,id,rfl,fun _ member => List.mem_of_mem_eraseIdx member,fun _ => id,rfl,rfl,rfl⟩
      | ok cursor =>
        obtain ⟨stands,seeds⟩ := ends
        have asked : ∀ other, some other ∈ s.connecting.set i (some cursor) → some other ∈ s.connecting ∨ other = cursor := by
          intro other member
          rcases List.mem_or_eq_of_mem_set member with before | same
          · exact Or.inl before
          · exact Or.inr (Option.some.inj same)
        right
        rcases sound with unseen | ⟨base,tracked⟩
        · -- The first cursor of the wallet is where the stream begins.
          refine ⟨cursor,⟨cursor,stands,settled_base _⟩,fun other member => ?_,?_,?_,?_,?_⟩
          · rcases asked other member with before | rfl
            · exact absurd before (unseen.reads other)
            · exact settled_base _
          · simp [unseen.connections]
          · simp [Stream.queued,unseen.delivered,unseen.chain,unseen.failed]
          · intro _
            simp only [Stream.queued,unseen.chain]
            exact covered_nil
          · simp [unseen.connections]
        · have before := tracked.cursor
          have same : world = s.world := by
            rcases seeds with same | none
            · exact same
            · simp [none] at before
          subst same
          refine ⟨base,tracked.cursor,fun other member => ?_,tracked.starts,tracked.listed,tracked.waiting,tracked.sent⟩
          rcases asked other member with early | rfl
          · exact tracked.reads other early
          · obtain ⟨current,stands',settled⟩ := before
            rw [stands] at stands'
            cases stands'
            exact settled
  next => exact sound

theorem sound_opened (sound : Sound wallet account s) (i : Nat) (throws : Bool) :
    Sound wallet account (openConnection options i throws s).2 := by
  unfold openConnection
  split
  next cursor asked =>
    have listed : some cursor ∈ s.connecting := List.mem_of_getElem? asked
    have trims : Trims s (resetHeartbeat { s with connecting := s.connecting.eraseIdx i }) :=
      ⟨rfl,id,rfl,fun _ member => List.mem_of_mem_eraseIdx member,fun _ => id,rfl,rfl,rfl⟩
    dsimp only
    split
    · exact sound_trims (sound_trims sound trims) (trims_schedule options _)
    · rcases sound with unseen | ⟨base,tracked⟩
      · exact absurd listed (unseen.reads cursor)
      · have after := tracked_trims tracked trims
        refine Or.inr ⟨base,after.cursor,after.reads,?_,after.listed,after.waiting,?_⟩
        · intro connection member
          rw [List.mem_append,List.mem_singleton] at member
          rcases member with before | rfl
          · exact after.starts connection before
          · exact tracked.reads cursor listed
        · intro isOpen connection member
          rw [List.mem_append,List.mem_singleton] at member
          rcases member with before | rfl
          · exact after.sent isOpen connection before
          · intro record sent
            cases sent
  next => exact sound

theorem sound_step (ascending : Ascending account) (s : Stream p) (event : Event p)
    (meets : Meets wallet options account s event) (sound : Sound wallet account s) :
    Sound wallet account (step wallet options s event).2 := by
  cases event with
  | message source record =>
    rcases sound with unseen | ⟨base,tracked⟩
    · left
      simp only [step,message,unseen.connections,List.find?_nil]
      exact unseen
    · exact Or.inr ⟨base,tracked_message ascending tracked meets⟩
  | error source =>
    simp only [step]
    split
    · exact sound_trims sound (trims_trans (trims_cleanup s) (trims_schedule options _))
    · exact sound
  | task trial recent =>
    rcases sound with unseen | ⟨base,tracked⟩
    · left
      simp only [step,runTask,unseen.chain]
      exact unseen
    · exact Or.inr ⟨base,tracked_task tracked meets⟩
  | timer timer =>
    simp only [step]
    split
    · have fires : Trims s { s with timers := s.timers.erase timer } :=
        ⟨rfl,id,rfl,fun _ => id,fun _ => id,rfl,rfl,rfl⟩
      exact sound_trims sound (trims_trans fires (trims_connect _))
    · exact sound
  | cursor i fails latest => exact sound_cursor sound i fails latest
  | opened i throws => exact sound_opened sound i throws
  | close =>
    refine sound_trims sound (trims_trans ?_ (trims_cleanup { s with isClosed := true }))
    exact ⟨rfl,fun isOpen => (by cases isOpen),rfl,fun _ => id,fun _ => id,rfl,rfl,rfl⟩

theorem sound_start (world : World p) : Sound wallet account (Stream.start world) := by
  refine sound_trims ?_ (trims_connect _)
  cases stands : world.pagingToken wallet.id with
  | none => exact Or.inl ⟨stands,by simp,rfl,rfl,rfl,rfl⟩
  | some base =>
    right
    refine ⟨base,⟨base,stands,settled_base _⟩,by simp,by simp,by simp [Stream.queued],fun _ => covered_nil,by simp⟩

theorem ahead_of_settled {cursor : String} {record : HorizonOperationRecord p.Operation}
    (settled : Settled account base processed cursor) (listed : record ∈ account ∧ reached (some base) record = false)
    (unprocessed : record ∉ processed) : reached (some cursor) record = false := by
  rw [← Bool.not_eq_true]
  intro passed
  rcases (settled record listed.1).2 passed with processed | before
  · exact unprocessed processed
  · rw [listed.2] at before
    cases before

theorem opens_read {event : Event p} {cursor : String} (opens : (step wallet options s event).1 = some cursor) :
    some cursor ∈ s.connecting ∧ (step wallet options s event).2.delivered = s.delivered ∧
      (step wallet options s event).2.processed = s.processed := by
  cases event with
  | opened i throws =>
    rcases asked : s.connecting[i]? with _ | _ | read
    · simp [step,openConnection,asked] at opens
    · simp [step,openConnection,asked] at opens
    · cases throws with
      | true => simp [step,openConnection,asked] at opens
      | false =>
        simp only [step,openConnection,asked,Bool.false_eq_true,↓reduceIte,Option.some.injEq] at opens ⊢
        subst opens
        exact ⟨List.mem_of_getElem? asked,rfl,rfl⟩
  | message | error | task | timer | cursor | close => cases opens

theorem unskipped_of_sound {t : Transition (Stream p) (Event p) (Option String)} {event : Event p}
    (is : t = transition (step wallet options) s event) (before : Sound wallet account t.before)
    (after : Sound wallet account t.after) : Unskipped wallet t := by
  constructor
  · intro record failed unprocessed
    rcases after with unseen | ⟨base,tracked⟩
    · rw [unseen.failed] at failed
      cases failed
    · obtain ⟨cursor,stands,settled⟩ := tracked.cursor
      rw [stands]
      exact ahead_of_settled settled (tracked.listed record (Or.inr (Or.inr failed))) unprocessed
  · subst is
    intro cursor opens record delivered unprocessed
    obtain ⟨read,sameDelivered,sameProcessed⟩ := opens_read opens
    simp only [transition,sameDelivered,sameProcessed] at delivered unprocessed
    rcases before with unseen | ⟨base,tracked⟩
    · exact absurd read (unseen.reads cursor)
    · exact ahead_of_settled (tracked.reads cursor read) (tracked.listed record (Or.inl delivered)) unprocessed

theorem meets_room (connection : Connection p) (only : s.connections = [connection])
    {record : HorizonOperationRecord p.Operation} (inOrder : InOrder account connection record)
    (room : s.processingChain.length < options.maxQueuedMessages) (source : Nat) :
    Meets wallet options account s (.message source record) := by
  intro other member _
  rw [only,List.mem_singleton] at member
  subst member
  exact ⟨inOrder,fun _ full => by omega⟩

/-- A task that is alone on the chain meets its condition however it ends, if the current connection is the only one. -/
theorem meets_alone (connection : Connection p) (only : s.connections = [connection])
    (current : s.currentClose = some connection.id) (task : Task p) (chain : s.processingChain = [task])
    (same : task.generation = s.streamGeneration) {trial : Trial p}
    (late : ∀ stage : Stage, stage.afterCommit = true → trial.fails stage = none)
    (noGap : gapAhead ⟨wallet,task.record,trial⟩ false s.world = false) :
    Meets wallet options account s (.task trial []) := by
  intro other rest split _
  rw [chain] at split
  cases split
  constructor
  · exact late
  · intro gap
    have both : false = true := noGap.symm.trans gap
    cases both
  · intro _ _ _ _ before q after none
    simp at none
  · intro _ _ _ _ other member _
    rw [only,List.mem_singleton] at member
    subst member
    exact Or.inr ⟨current,same⟩

end Events

/-- In every run of the stream, from any tables, whose events meet the conditions, the cursor never moves past a record whose processing
    failed and which was not processed otherwise, and every connection resumes before all messages that have not been processed. -/
theorem stream_skips_none {wallet : Wallet} {options : StartHorizonSSEStreamOptions}
    {account : List (HorizonOperationRecord p.Operation)} (ascending : Ascending account) {world : World p}
    {events : List (Event p)}
    (meets : ∀ t ∈ history (step wallet options) (Stream.start world) events, Meets wallet options account t.before t.input) :
    ∀ t ∈ history (step wallet options) (Stream.start world) events, Unskipped wallet t := by
  intro t member
  obtain ⟨before,after⟩ := history_inv (I := Sound wallet account) (sound_step ascending) meets (sound_start world) t member
  obtain ⟨past,event,is⟩ := mem_history member
  exact unskipped_of_sound is before after

def firstPayment : HorizonOperationRecord plain.Operation := nativePayment "1001" "aa" "5" sampleWallet.publicKey
def secondPayment : HorizonOperationRecord plain.Operation := nativePayment "1002" "bb" "7" sampleWallet.publicKey

/-- A call that does not acquire the mutex. -/
def locked : Trial plain := { calm "p0" with lockAnswers := fun _ => .null }

/-- The only message of the chain fails; the stream resumes from the cursor and takes in this one and the next. -/
def resumed : List (Event plain) :=
  [.cursor 0 (fun _ => none) "1000",.opened 0 false,.message 1 firstPayment,.task locked [],.timer 3,
    .cursor 0 (fun _ => none) "1000",.opened 0 false,.message 5 firstPayment,.task (calm "p1") [],
    .message 5 secondPayment,.task (calm "p2") []]

theorem ascending_payments : Ascending [firstPayment,secondPayment] := by
  simp only [Ascending,List.pairwise_cons,List.mem_singleton,forall_eq,List.not_mem_nil,false_implies,implies_true,
    List.Pairwise.nil,and_self,and_true]
  decide

theorem meets_resumed :
    ∀ t ∈ history (step sampleWallet {}) (Stream.start World.empty) resumed,
      Meets sampleWallet {} [firstPayment,secondPayment] t.before t.input := by
  simp only [resumed,history_cons,history_nil,List.forall_mem_cons]
  refine ⟨trivial,trivial,?_,?_,trivial,trivial,trivial,?_,?_,?_,?_,by simp⟩
  · exact meets_room ⟨1,0,"1000",[]⟩ rfl ⟨[secondPayment],rfl⟩ (by decide) 1
  · exact meets_alone ⟨1,0,"1000",[firstPayment]⟩ rfl rfl ⟨firstPayment,0⟩ rfl rfl (fun _ _ => rfl) (by decide)
  · exact meets_room ⟨5,1,"1000",[]⟩ rfl ⟨[secondPayment],rfl⟩ (by decide) 5
  · exact meets_alone ⟨5,1,"1000",[firstPayment]⟩ rfl rfl ⟨firstPayment,1⟩ rfl rfl (fun _ _ => rfl) (by decide)
  · exact meets_room ⟨5,1,"1000",[firstPayment]⟩ rfl ⟨[],rfl⟩ (by decide) 5
  · exact meets_alone ⟨5,1,"1000",[firstPayment,secondPayment]⟩ rfl rfl ⟨secondPayment,1⟩ rfl rfl (fun _ _ => rfl)
      (by decide)

/-- No transition of this run skips a record, and at its end the cursor stands at the last payment. -/
def ResumedUnskipped : Prop :=
  ∀ t ∈ history (step sampleWallet {}) (Stream.start World.empty) resumed, Unskipped sampleWallet t

theorem resumed_skips_none :
    ResumedUnskipped ∧
      (run (step sampleWallet {}) (Stream.start World.empty) resumed).world.pagingToken "w1" = some "1002" :=
  ⟨stream_skips_none ascending_payments meets_resumed,by decide⟩

/-- Two messages wait when the first of them fails, and the second goes through; then the stream restarts. -/
def queuedBehind : List (Event plain) :=
  [.cursor 0 (fun _ => none) "1000",.opened 0 false,.message 1 firstPayment,.message 1 secondPayment,
    .task locked [],.task (calm "p2") [],.timer 4,.cursor 0 (fun _ => none) "1000",.opened 0 false]

/-- No run of any stream skips a record. -/
def NeverSkips : Prop :=
  ∀ (wallet : Wallet) (options : StartHorizonSSEStreamOptions) (world : World plain) (events : List (Event plain)),
    ∀ t ∈ history (step wallet options) (Stream.start world) events, Unskipped wallet t

/-- The task behind the failed one moves the cursor past it, and the stream resumes after it. -/
theorem failed_record_skipped :
    ¬ NeverSkips ∧
      (step sampleWallet {} (run (step sampleWallet {}) (Stream.start World.empty) (queuedBehind.take 8))
        (.opened 0 false)).1 = some "1002" := by
  refine ⟨fun never => ?_,by decide⟩
  have last := never sampleWallet {} World.empty queuedBehind
    (transition (step sampleWallet {}) (run (step sampleWallet {}) (Stream.start World.empty) (queuedBehind.take 8))
      (.opened 0 false)) (by simp [queuedBehind,run])
  have passed := last.cursor firstPayment (List.mem_singleton.mpr rfl) fun member => by
    have same : firstPayment = secondPayment := List.mem_singleton.mp member
    exact absurd (congrArg (·.base.paging_token) same) (by decide)
  exact absurd passed (by decide)

end StellarAlerts.PaymentStream
