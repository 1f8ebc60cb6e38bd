import StellarAlerts.HorizonFailover

/-!
The continuity of a stream over its failovers. What it has handed over is always all of
the account's records from the cursor at the start up to its present cursor (`Told`),
and at most one connection is open, which has sent nothing yet behind that cursor
(`Live`, `connections_exclusive`).
-/
namespace StellarAlerts.HorizonFailover
open JsonTexts RisingLogs HorizonRecords Histories
open Horizon (orElse)

variable {place : String → Nat} (account : Account place) (initialCursor : String)

def Account.operations (account : Account place) : Log fun record : Json => place (pagingToken record) :=
  account.keep isHorizonOperationRecord

/-- What the stream has told so far is the account's history up to its cursor. -/
structure Told (s : Stream) : Prop where
  sent : handedOver s.journal = account.operations.between (place initialCursor) (place s.currentCursor)
  ahead : place initialCursor ≤ place s.currentCursor
  current : s.currentCursor = lastToken initialCursor s.journal
  seen : ∀ token ∈ s.seenTokens, place token ≤ place s.currentCursor
  cursors : ∀ before nodeUrl cursor after, s.journal = before ++ .connecting nodeUrl cursor :: after →
    cursor = lastToken initialCursor before

/-- Every open connection is the one that the close handle closes. -/
def OneOpen (s : Stream) : Prop := ∀ (i : Nat) c, s.connections[i]? = some c → c.isOpen = true → s.activeCloseFn = some i

/-- No connection is open. -/
def Quiet (s : Stream) : Prop := ∀ c ∈ s.connections, c.isOpen = false

/-- While a connection is open, no timer runs, and what it has sent behind the cursor is no operation record. -/
structure Live (s : Stream) : Prop where
  one : OneOpen s
  running : ∀ c ∈ s.connections, c.isOpen = true → s.isClosed = false ∧ s.reconnectTimeout = false
  waiting : ∀ c ∈ s.connections, c.isOpen = true → place s.currentCursor ≤ c.sentTo ∧
    account.operations.between (place s.currentCursor) c.sentTo = []

variable {account initialCursor} {s s' : Stream}

/-! ### The close handle -/

theorem oneOpen_of_quiet (quiet : Quiet s) : OneOpen s := by
  intro i c at_ isOpen
  rw [quiet c (List.mem_of_getElem? at_)] at isOpen
  cases isOpen

theorem live_of_quiet (quiet : Quiet s) : Live account s := by
  refine ⟨oneOpen_of_quiet quiet,fun c listed isOpen => ?_,fun c listed isOpen => ?_⟩
  · rw [quiet c listed] at isOpen
    cases isOpen
  · rw [quiet c listed] at isOpen
    cases isOpen

theorem quiet_closeActive (one : OneOpen s) : Quiet s.closeActive := by
  intro c listed
  rw [Stream.closeActive] at listed
  cases active : s.activeCloseFn with
  | none =>
    rw [active] at listed
    obtain ⟨i,at_⟩ := List.mem_iff_getElem?.mp listed
    rw [← Bool.not_eq_true]
    intro isOpen
    have own := one i c at_ isOpen
    rw [active] at own
    cases own
  | some i =>
    rw [active] at listed
    obtain ⟨j,at_⟩ := List.mem_iff_getElem?.mp listed
    simp only [List.getElem?_modify] at at_
    obtain ⟨d,before,is⟩ := Option.map_eq_some_iff.mp at_
    by_cases own : i = j
    · rw [if_pos own] at is
      rw [← is]
    · rw [if_neg own] at is
      rw [← Bool.not_eq_true]
      intro isOpen
      have active' := one j d before (by rw [is]; exact isOpen)
      rw [active] at active'
      exact own (Option.some.inj active')

theorem quiet_close (one : OneOpen s) : Quiet s.close := fun c listed => quiet_closeActive one c listed

theorem oneOpen_onError (one : OneOpen s) (closing : Bool) : OneOpen (s.onError closing) := by
  cases closing with
  | false => exact one
  | true => exact oneOpen_of_quiet (quiet_close one)

theorem quiet_onError (quiet : Quiet s) (closing : Bool) : Quiet (s.onError closing) := by
  cases closing with
  | false => exact quiet
  | true => exact quiet_close (oneOpen_of_quiet quiet)

theorem quiet_setTimer (quiet : Quiet s) : Quiet s.setTimer := by
  rw [Stream.setTimer]
  split
  · exact quiet
  · exact quiet

/-! ### What leaves the cursor and the journal alone -/

/-- A change that tells nothing; remembered tokens may be dropped. -/
structure Silent (s s' : Stream) : Prop where
  journal : s'.journal = s.journal
  cursor : s'.currentCursor = s.currentCursor
  seen : ∀ token ∈ s'.seenTokens, token ∈ s.seenTokens

theorem Silent.refl (s : Stream) : Silent s s := ⟨rfl,rfl,fun _ listed => listed⟩

theorem Silent.trans {s₁ s₂ s₃ : Stream} (first : Silent s₁ s₂) (second : Silent s₂ s₃) : Silent s₁ s₃ :=
  ⟨second.journal.trans first.journal,second.cursor.trans first.cursor,
    fun token listed => first.seen token (second.seen token listed)⟩

theorem told_silent (told : Told account initialCursor s) (silent : Silent s s') : Told account initialCursor s' := by
  refine ⟨?_,?_,?_,fun token listed => ?_,?_⟩
  · rw [silent.journal,silent.cursor]
    exact told.sent
  · rw [silent.cursor]
    exact told.ahead
  · rw [silent.journal,silent.cursor]
    exact told.current
  · rw [silent.cursor]
    exact told.seen token (silent.seen token listed)
  · rw [silent.journal]
    exact told.cursors

theorem silent_closeActive (s : Stream) : Silent s s.closeActive := by
  rw [Stream.closeActive]
  split
  · exact .refl s
  · exact ⟨rfl,rfl,fun _ listed => listed⟩

theorem silent_close (s : Stream) : Silent s s.close :=
  (silent_closeActive s).trans ⟨rfl,rfl,fun _ listed => by cases listed⟩

theorem silent_onError (s : Stream) (closing : Bool) : Silent s (s.onError closing) := by
  cases closing with
  | false => exact .refl s
  | true => exact silent_close s

theorem silent_setTimer (s : Stream) : Silent s s.setTimer := by
  rw [Stream.setTimer]
  split
  · exact .refl s
  · exact ⟨rfl,rfl,fun _ listed => listed⟩

theorem onerror_quiet (live : Live account s) (nodeUrl : String) (error : Option Failure) (closing : Bool) (now : Nat) :
    Live account (s.onerror nodeUrl error closing now) ∧ Silent s (s.onerror nodeUrl error closing now) := by
  rw [Stream.onerror]
  split
  · exact ⟨live,.refl s⟩
  · have one : OneOpen (s.markNodeFailure nodeUrl error now) := live.one
    constructor
    · exact live_of_quiet (quiet_setTimer (quiet_closeActive (oneOpen_onError one closing)))
    · have marked : Silent s (s.markNodeFailure nodeUrl error now) := ⟨rfl,rfl,fun _ listed => listed⟩
      exact ((marked.trans (silent_onError _ closing)).trans (silent_closeActive _)).trans (silent_setTimer _)

/-! ### Connections -/

theorem handedOver_append (first second : List Entry) : handedOver (first ++ second) = handedOver first ++ handedOver second := by
  induction first with
  | nil => rfl
  | cons entry rest ih =>
    cases entry with
    | connecting nodeUrl cursor => exact ih
    | handed record nodeUrl => exact congrArg (record :: ·) ih

theorem within_or_last {journal before after : List Entry} {entry last : Entry}
    (split : journal ++ [last] = before ++ entry :: after) :
    (journal = before ∧ last = entry) ∨ ∃ rest, journal = before ++ entry :: rest := by
  rcases List.eq_nil_or_concat after with rfl | ⟨rest,final,rfl⟩
  · obtain ⟨same,is⟩ := List.append_inj' split rfl
    exact .inl ⟨same,List.singleton_inj.mp is⟩
  · rw [List.concat_eq_append,← List.cons_append,← List.append_assoc] at split
    exact .inr ⟨rest,(List.append_inj' split rfl).1⟩

theorem told_connecting (told : Told account initialCursor s) (nodeUrl : String) :
    Told account initialCursor (s.note (.connecting nodeUrl s.currentCursor)) := by
  have handed : handedOver (s.note (.connecting nodeUrl s.currentCursor)).journal = handedOver s.journal := by
    simp [Stream.note,handedOver_append,handedOver]
  refine ⟨?_,told.ahead,?_,told.seen,?_⟩
  · rw [handed]
    exact told.sent
  · rw [lastToken,handed]
    exact told.current
  · intro before url cursor after split
    rcases within_or_last split with ⟨rfl,is⟩ | ⟨rest,within⟩
    · injection is with _ same
      exact same ▸ told.current
    · exact told.cursors before url cursor rest within

theorem connect_opened (running : s.isClosed = false) (now : Nat) :
    s.connectToNextNode place .opened now =
      { s.note (.connecting s.pool.getActiveNode s.currentCursor) with
        connections := s.connections ++ [⟨s.pool.getActiveNode,place s.currentCursor,true⟩]
        activeCloseFn := some s.connections.length } := by
  simp [Stream.connectToNextNode,running,Stream.note]

theorem connect_thrown (running : s.isClosed = false) (error : Failure) (closing : Bool) (now : Nat) :
    s.connectToNextNode place (.thrown error closing) now =
      let failed := ((s.note (.connecting s.pool.getActiveNode s.currentCursor)).markNodeFailure s.pool.getActiveNode
        (some error) now).onError closing
      if failed.isClosed then failed else failed.setTimer := by
  simp [Stream.connectToNextNode,running]

theorem connect_keeps (told : Told account initialCursor s) (quiet : Quiet s) (free : s.reconnectTimeout = false)
    (attempt : Attempt) (now : Nat) :
    Told account initialCursor (s.connectToNextNode place attempt now) ∧
      Live account (s.connectToNextNode place attempt now) := by
  cases closed : s.isClosed with
  | true =>
    rw [Stream.connectToNextNode,if_pos closed]
    exact ⟨told,live_of_quiet quiet⟩
  | false =>
    have noted := told_connecting told s.pool.getActiveNode
    cases attempt with
    | opened =>
      rw [connect_opened closed]
      refine ⟨told_silent noted ⟨rfl,rfl,fun _ listed => listed⟩,?_,?_,?_⟩
      · intro i c at_ isOpen
        rcases Nat.lt_trichotomy i s.connections.length with old | same | beyond
        · have listed := List.mem_of_getElem? ((List.getElem?_append_left old).symm.trans at_)
          rw [quiet c listed] at isOpen
          cases isOpen
        · rw [same]
        · have none := List.getElem?_eq_none (l := s.connections ++ [⟨s.pool.getActiveNode,place s.currentCursor,true⟩])
            (i := i) (by simp; omega)
          cases none.symm.trans at_
      · exact fun _ _ _ => ⟨closed,free⟩
      · intro c listed isOpen
        rcases List.mem_append.mp listed with old | new
        · rw [quiet c old] at isOpen
          cases isOpen
        · rw [List.mem_singleton.mp new]
          exact ⟨Nat.le_refl _,between_empty (Nat.le_refl _)⟩
    | thrown error closing =>
      rw [connect_thrown closed]
      dsimp only
      generalize marked : (s.note (.connecting s.pool.getActiveNode s.currentCursor)).markNodeFailure
        s.pool.getActiveNode (some error) now = failed
      have toldFailed : Told account initialCursor failed := by
        rw [← marked]
        exact told_silent noted ⟨rfl,rfl,fun _ listed => listed⟩
      have quietFailed : Quiet failed := by
        rw [← marked]
        exact quiet
      have told' := told_silent toldFailed (silent_onError failed closing)
      have quiet' := quiet_onError quietFailed closing
      split
      · exact ⟨told',live_of_quiet quiet'⟩
      · exact ⟨told_silent told' (silent_setTimer _),live_of_quiet (quiet_setTimer quiet')⟩

/-! ### Records -/

theorem mem_remember {seenTokens : List String} {token other : String} (listed : other ∈ remember seenTokens token) :
    other = token ∨ other ∈ seenTokens := by
  have within : other ∈ seenTokens ++ [token] := by
    rw [remember] at listed
    generalize seenTokens ++ [token] = seen at listed ⊢
    split at listed
    · cases seen with
      | nil => exact listed
      | cons oldest rest =>
        dsimp only at listed
        split at listed
        · exact List.mem_cons_of_mem _ listed
        · exact listed
    · exact listed
  rcases List.mem_append.mp within with old | new
  · exact .inr old
  · exact .inl (List.mem_singleton.mp new)

theorem onmessage_passed {record : Json} (operation : isHorizonOperationRecord record = false)
    (nodeUrl : String) : s.onmessage nodeUrl record = s := by
  simp [Stream.onmessage,operation]

theorem onmessage_handed (running : s.isClosed = false) {record : Json} (operation : isHorizonOperationRecord record = true)
    (named : pagingToken record ≠ "") (fresh : pagingToken record ∉ s.seenTokens) (nodeUrl : String) :
    s.onmessage nodeUrl record =
      ({ s with
        seenTokens := remember s.seenTokens (pagingToken record)
        currentCursor := pagingToken record } : Stream).note (.handed record nodeUrl) := by
  have token : orElse (pagingToken record) (txHash record) = pagingToken record := if_neg named
  rw [Stream.onmessage,if_neg (by simp [running]),if_neg (by simp [operation]),token]
  dsimp only
  rw [if_pos named,if_neg fresh]

variable {c : Connection}

theorem between_sent (live : Live account s) (listed : c ∈ s.connections) (isOpen : c.isOpen = true) {record : Json}
    (found : account.next c.sentTo = some record) :
    place s.currentCursor < place (pagingToken record) ∧
      account.operations.between (place s.currentCursor) (place (pagingToken record)) =
        [record].filter isHorizonOperationRecord := by
  obtain ⟨le,none⟩ := live.waiting c listed isOpen
  have behind := next_place found
  refine ⟨Nat.lt_of_le_of_lt le behind,?_⟩
  rw [between_split _ le (Nat.le_of_lt behind),none,List.nil_append,Account.operations,between_keep,between_next found]

variable {i : Nat}

/-- Where the open connection has moved on to a place behind the cursor with no
    operation record between, the streams are as they should be. -/
theorem live_moved (live : Live account s) (at_ : s.connections[i]? = some c) (isOpen : c.isOpen = true) {sentTo : Nat}
    (connections : s'.connections = s.connections.set i { c with sentTo := sentTo })
    (active : s'.activeCloseFn = s.activeCloseFn) (closed : s'.isClosed = s.isClosed)
    (timer : s'.reconnectTimeout = s.reconnectTimeout) (le : place s'.currentCursor ≤ sentTo)
    (none : account.operations.between (place s'.currentCursor) sentTo = []) : Live account s' := by
  have only : ∀ (j : Nat) d, s'.connections[j]? = some d → d.isOpen = true → j = i ∧ d = { c with sentTo := sentTo } := by
    intro j d at' isOpen'
    rw [connections,List.getElem?_set] at at'
    by_cases own : i = j
    · rw [if_pos own,if_pos (List.getElem?_eq_some_iff.mp at_).1] at at'
      exact ⟨own.symm,(Option.some.inj at').symm⟩
    · rw [if_neg own] at at'
      have same := (live.one j d at' isOpen').symm.trans (live.one i c at_ isOpen)
      exact absurd (Option.some.inj same).symm own
  refine ⟨fun j d at' isOpen' => ?_,fun d listed isOpen' => ?_,fun d listed isOpen' => ?_⟩
  · rw [(only j d at' isOpen').1,active]
    exact live.one i c at_ isOpen
  · rw [closed,timer]
    exact live.running c (List.mem_of_getElem? at_) isOpen
  · obtain ⟨j,at'⟩ := List.mem_iff_getElem?.mp listed
    rw [(only j d at' isOpen').2]
    exact ⟨le,none⟩

theorem told_handed (told : Told account initialCursor s) {record : Json}
    (behind : place s.currentCursor < place (pagingToken record))
    (next : account.operations.between (place s.currentCursor) (place (pagingToken record)) = [record])
    (nodeUrl : String) :
    Told account initialCursor
      (({ s with
        seenTokens := remember s.seenTokens (pagingToken record)
        currentCursor := pagingToken record } : Stream).note (.handed record nodeUrl)) := by
  have handed : handedOver (s.journal ++ [.handed record nodeUrl]) = handedOver s.journal ++ [record] := by
    simp [handedOver_append,handedOver]
  refine ⟨?_,Nat.le_of_lt (Nat.lt_of_le_of_lt told.ahead behind),?_,fun token remembered => ?_,?_⟩
  · have split := between_split account.operations told.ahead (Nat.le_of_lt behind)
    rw [next,← told.sent] at split
    exact handed.trans split.symm
  · change pagingToken record = ((handedOver (s.journal ++ [.handed record nodeUrl])).getLast?.map pagingToken).getD _
    simp [handed]
  · rcases mem_remember remembered with rfl | old
    · exact Nat.le_refl _
    · exact Nat.le_trans (told.seen token old) (Nat.le_of_lt behind)
  · intro before url cursor after split
    rcases within_or_last split with ⟨_,is⟩ | ⟨rest,within⟩
    · cases is
    · exact told.cursors before url cursor rest within

/-- The connection `c`, having sent what is up to a place. -/
def Stream.sent (s : Stream) (i : Nat) (c : Connection) (sentTo : Nat) : Stream :=
  { s with connections := s.connections.set i { c with sentTo := sentTo } }

theorem send_silent (nothing : ∀ c record, s.connections[i]? = some c → c.isOpen = true → account.next c.sentTo ≠ some record) :
    s.send account i = s := by
  rw [Stream.send]
  split
  · rfl
  · rename_i c at_
    split
    · rename_i record isOpen found
      exact absurd found (nothing c record at_ isOpen)
    · rfl

theorem send_record {record : Json} (at_ : s.connections[i]? = some c) (isOpen : c.isOpen = true)
    (found : account.next c.sentTo = some record) :
    s.send account i = (s.sent i c (place (pagingToken record))).onmessage c.nodeUrl record := by
  simp [Stream.send,Stream.sent,at_,isOpen,found]

/-- The record that the open connection sends next is the next of the account: an
    operation record is handed over, anything else is passed over. -/
theorem send_keeps (told : Told account initialCursor s) (live : Live account s) (i : Nat) :
    Told account initialCursor (s.send account i) ∧ Live account (s.send account i) := by
  by_cases nothing : ∀ c record, s.connections[i]? = some c → c.isOpen = true → account.next c.sentTo ≠ some record
  · rw [send_silent nothing]
    exact ⟨told,live⟩
  simp only [not_forall,not_not] at nothing
  obtain ⟨c,record,at_,isOpen,found⟩ := nothing
  rw [send_record at_ isOpen found]
  have listed := List.mem_of_getElem? at_
  obtain ⟨behind,next⟩ := between_sent live listed isOpen found
  have running : (s.sent i c (place (pagingToken record))).isClosed = false := (live.running c listed isOpen).1
  have told' : Told account initialCursor (s.sent i c (place (pagingToken record))) :=
    told_silent told ⟨rfl,rfl,fun _ seen => seen⟩
  cases operation : isHorizonOperationRecord record with
  | false =>
    rw [List.filter_singleton,operation] at next
    rw [onmessage_passed operation]
    exact ⟨told',live_moved live at_ isOpen rfl rfl rfl rfl (Nat.le_of_lt behind) next⟩
  | true =>
    rw [List.filter_singleton,operation] at next
    have fresh : pagingToken record ∉ (s.sent i c (place (pagingToken record))).seenTokens := by
      intro seen
      have below := told.seen _ seen
      omega
    rw [onmessage_handed running operation (account.named record (mem_of_next found)) fresh]
    refine ⟨told_handed told' behind next c.nodeUrl,?_⟩
    exact live_moved live at_ isOpen rfl rfl rfl rfl (Nat.le_refl _) (between_empty (Nat.le_refl _))

/-! ### Runs -/

theorem silent_of_pool (s : Stream) (pool : HorizonPool) : Silent s { s with pool := pool } := ⟨rfl,rfl,fun _ listed => listed⟩

theorem step_keeps (event : Event) (told : Told account initialCursor s) (live : Live account s) :
    Told account initialCursor (step account s event).2 ∧ Live account (step account s event).2 := by
  cases event with
  | message i => exact send_keeps told live i
  | error i error closing now =>
    rw [step]
    split
    · exact ⟨told,live⟩
    · rename_i c at_
      obtain ⟨live',silent⟩ := onerror_quiet live c.nodeUrl error closing now
      exact ⟨told_silent told silent,live'⟩
  | timeout attempt now =>
    rw [step]
    split
    · rename_i timer
      have quiet : Quiet s := by
        intro c listed
        rw [← Bool.not_eq_true]
        intro isOpen
        rw [(live.running c listed isOpen).2] at timer
        cases timer
      have stopped : Told account initialCursor { s with reconnectTimeout := false } :=
        told_silent told ⟨rfl,rfl,fun _ listed => listed⟩
      exact connect_keeps stopped quiet rfl attempt now
    · exact ⟨told,live⟩
  | probe url answer latencyMs now => exact ⟨told_silent told (silent_of_pool s _),live.one,live.running,live.waiting⟩
  | failure url error now => exact ⟨told_silent told (silent_of_pool s _),live.one,live.running,live.waiting⟩
  | close => exact ⟨told_silent told (silent_close s),live_of_quiet (quiet_close live.one)⟩

theorem start_keeps (account : Account place) (pool : HorizonPool) (initialCursor : String) (attempt : Attempt) (now : Nat) :
    Told account initialCursor (streamPaymentsWithFailover place pool initialCursor attempt now) ∧
      Live account (streamPaymentsWithFailover place pool initialCursor attempt now) := by
  refine connect_keeps ?_ (fun c listed => by cases listed) rfl attempt now
  refine ⟨(between_empty (Nat.le_refl _)).symm,Nat.le_refl _,rfl,fun token listed => (by cases listed),?_⟩
  intro before nodeUrl cursor after split
  cases before with
  | nil => cases split
  | cons entry rest => cases split

theorem run_keeps (account : Account place) (pool : HorizonPool) (initialCursor : String) (attempt : Attempt) (now : Nat)
    (events : List Event) :
    Told account initialCursor (run (step account) (streamPaymentsWithFailover place pool initialCursor attempt now) events) := by
  refine (run_inv (I := fun s => Told account initialCursor s ∧ Live account s) ?_
    (start_keeps account pool initialCursor attempt now) events).1
  exact fun s event holds => step_keeps event holds.1 holds.2

/-- What a stream has done outside after a sequence of events. -/
def streamJournal (account : Account place) (pool : HorizonPool) (initialCursor : String) (attempt : Attempt) (now : Nat)
    (events : List Event) : List Entry :=
  (run (step account) (streamPaymentsWithFailover place pool initialCursor attempt now) events).journal

/-- For every pool and account, and every sequence of records, errors of any connection, reconnects, probes and failures: what was
    handed to `onMessage` are the account's operation records behind the initial cursor up to the last of them, each once and in the
    order of their tokens; and every connection was asked for at the token of the record handed over last. -/
theorem failover_continuity (place : String → Nat) (account : Account place) (pool : HorizonPool) (initialCursor : String)
    (attempt : Attempt) (now : Nat) (events : List Event) :
    handedOver (streamJournal account pool initialCursor attempt now events) <+:
        account.operations.behind (place initialCursor) ∧
      (handedOver (streamJournal account pool initialCursor attempt now events)).Pairwise
        (fun a b => place (pagingToken a) < place (pagingToken b)) ∧
      ∀ before nodeUrl cursor after,
        streamJournal account pool initialCursor attempt now events = before ++ .connecting nodeUrl cursor :: after →
          cursor = lastToken initialCursor before := by
  have told := run_keeps account pool initialCursor attempt now events
  refine ⟨?_,?_,told.cursors⟩
  · rw [streamJournal,told.sent]
    exact between_first
  · rw [streamJournal,told.sent]
    exact between_rising

/-! ### A stream that is closed -/

theorem step_closed (closed : s.isClosed = true) (event : Event) :
    (step account s event).2.isClosed = true ∧ (step account s event).2.journal = s.journal := by
  cases event with
  | message i =>
    rw [step,Stream.send]
    split
    · exact ⟨closed,rfl⟩
    · split
      · simp [Stream.onmessage,closed]
      · exact ⟨closed,rfl⟩
  | error i error closing now =>
    rw [step]
    split
    · exact ⟨closed,rfl⟩
    · simp [Stream.onerror,closed]
  | timeout attempt now =>
    rw [step]
    split
    · simp [Stream.connectToNextNode,closed]
    · exact ⟨closed,rfl⟩
  | probe url answer latencyMs now => exact ⟨closed,rfl⟩
  | failure url error now => exact ⟨closed,rfl⟩
  | close => exact ⟨rfl,(silent_close s).journal⟩

/-- However events interleave, at most one connection is open, and while one is, the stream is
    not closed and no timer runs. A closed stream asks no node and hands over nothing again. -/
theorem connections_exclusive (account : Account place) (pool : HorizonPool) (initialCursor : String) (attempt : Attempt)
    (now : Nat) (events : List Event) :
    let s := run (step account) (streamPaymentsWithFailover place pool initialCursor attempt now) events
    (∀ (i j : Nat) c d, s.connections[i]? = some c → s.connections[j]? = some d → c.isOpen = true → d.isOpen = true → i = j) ∧
    (∀ c ∈ s.connections, c.isOpen = true → s.isClosed = false ∧ s.reconnectTimeout = false) ∧
    (s.isClosed = true → ∀ later, (run (step account) s later).journal = s.journal) := by
  intro s
  have live := (run_inv (I := fun s => Told account initialCursor s ∧ Live account s)
    (fun s event holds => step_keeps event holds.1 holds.2) (start_keeps account pool initialCursor attempt now) events).2
  refine ⟨fun i j c d first second isOpen isOpen' => ?_,live.running,fun closed later => ?_⟩
  · exact Option.some.inj ((live.one i c first isOpen).symm.trans (live.one j d second isOpen'))
  · refine (@run_inv _ _ _ (step account) (fun t => t.isClosed = true ∧ t.journal = s.journal) ?_ s ⟨closed,rfl⟩ later).2
    rintro t event ⟨closed,same⟩
    obtain ⟨closed',same'⟩ := @step_closed _ account t closed event
    exact ⟨closed',same'.trans same⟩

end StellarAlerts.HorizonFailover
