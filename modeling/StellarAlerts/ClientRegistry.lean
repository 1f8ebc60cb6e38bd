import StellarAlerts.Histories
import StellarAlerts.JsonTexts
import StellarAlerts.OrderedMaps

/-!
The clients of each user and their queues. What a client receives is, in order, what was
queued for it, up to what was dropped; and a socket that takes the place of another one
begins with an empty queue (`realtime_delivery`).
-/
namespace StellarAlerts.ClientRegistry
open Histories OrderedMaps

/-! ### State -/

inductive RealtimeMessageType where
  | payment
  | wallet_update
  | connection
  | delivery
  | token_expiring
  | token_expired
deriving DecidableEq, Repr

structure WebSocketMessage (Payload : Type) where
  type : RealtimeMessageType
  payload : Payload
  timestamp : String
deriving DecidableEq, Repr

def SOCKET_OPEN : Nat := 1
def DEFAULT_MAX_QUEUE_SIZE : Nat := 50

/-- Sockets have numbers. -/
structure ClientEntry (Payload : Type) where
  socket : Nat
  queue : List (WebSocketMessage Payload)
  subscriptions : List String
deriving DecidableEq, Repr

/-- The bound of the registry, `JSON.stringify`, and which calls of `send` come through, one after the other. -/
structure Platform (Payload : Type) where
  maxQueueSize : Nat
  stringify : WebSocketMessage Payload → Except String String
  accepts : Nat → Bool

/-- The entries that were made, by number, and the sockets. -/
structure World (Payload : Type) where
  entries : List (ClientEntry Payload)
  clientsByUser : OrderedMap String (List Nat)
  readyState : Nat → Nat
  attempts : Nat

/-- What came through on a socket, and the entry that it was queued for. -/
structure Delivery where
  entry : Nat
  socket : Nat
  data : String
deriving DecidableEq, Repr

variable {Payload : Type} {p : Platform Payload}

def World.new (readyState : Nat → Nat) : World Payload := ⟨[],.empty,readyState,0⟩
def World.queue (w : World Payload) (n : Nat) : List (WebSocketMessage Payload) := (w.entries[n]?).elim [] ClientEntry.queue
def World.socket (w : World Payload) (n : Nat) : Option Nat := (w.entries[n]?).map ClientEntry.socket
def World.put (w : World Payload) (n : Nat) (entry : ClientEntry Payload) : World Payload :=
  { w with entries := w.entries.set n entry }

/-! ### Operations -/

/-- The number of an entry is how many there were before. -/
def register (w : World Payload) (userId : String) (socket : Nat) : World Payload :=
  { w with
    entries := w.entries ++ [⟨socket,[],[]⟩]
    clientsByUser := w.clientsByUser.set userId ((w.clientsByUser.get userId).getD [] ++ [w.entries.length]) }

def reregister (w : World Payload) (n : Nat) (newSocket : Nat) : World Payload :=
  match w.entries[n]? with
  | none => w
  | some entry => w.put n { entry with socket := newSocket, queue := [] }

def subscribe (w : World Payload) (n : Nat) (topic : String) : World Payload :=
  match w.entries[n]? with
  | none => w
  | some entry =>
    w.put n { entry with subscriptions := if topic ∈ entry.subscriptions then entry.subscriptions else entry.subscriptions ++ [topic] }

def unsubscribe (w : World Payload) (n : Nat) (topic : String) : World Payload :=
  match w.entries[n]? with
  | none => w
  | some entry => w.put n { entry with subscriptions := entry.subscriptions.filter (· ≠ topic) }

def unregister (w : World Payload) (userId : String) (n : Nat) : World Payload :=
  match w.clientsByUser.get userId with
  | none => w
  | some entries =>
    let left := entries.filter (· ≠ n)
    { w with clientsByUser := if left = [] then w.clientsByUser.delete userId else w.clientsByUser.set userId left }

/-- What is sent of a queue, what is left of it, and the calls of `send` so far. -/
def sendQueue (p : Platform Payload) : List (WebSocketMessage Payload) → Nat → List String × List (WebSocketMessage Payload) × Nat
  | [], attempts => ([],[],attempts)
  | next :: rest, attempts =>
    match p.stringify next with
    | .error _ => ([],next :: rest,attempts)
    | .ok data =>
      if p.accepts attempts then
        let (sent,left,attempts) := sendQueue p rest (attempts + 1)
        (data :: sent,left,attempts)
      else ([],next :: rest,attempts + 1)

def flush (p : Platform Payload) (w : World Payload) (n : Nat) : List Delivery × World Payload :=
  match w.entries[n]? with
  | none => ([],w)
  | some entry =>
    if w.readyState entry.socket ≠ SOCKET_OPEN then ([],w)
    else
      let (sent,queue,attempts) := sendQueue p entry.queue w.attempts
      (sent.map fun data => ⟨n,entry.socket,data⟩,{ w.put n { entry with queue } with attempts })

def sendToEntry (p : Platform Payload) (w : World Payload) (n : Nat) (message : WebSocketMessage Payload) :
    List Delivery × World Payload :=
  match w.entries[n]? with
  | none => ([],w)
  | some entry =>
    let pushed := entry.queue ++ [message]
    let queue := if p.maxQueueSize < pushed.length then pushed.tail else pushed
    flush p (w.put n { entry with queue }) n

def sendToEach (p : Platform Payload) (message : WebSocketMessage Payload) : List Nat → World Payload → List Delivery × World Payload
  | [], w => ([],w)
  | n :: rest, w =>
    let (sent,w) := sendToEntry p w n message
    let (more,w) := sendToEach p message rest w
    (sent ++ more,w)

def broadcastToUser (p : Platform Payload) (w : World Payload) (userId : String) (message : WebSocketMessage Payload) :
    List Delivery × World Payload :=
  match w.clientsByUser.get userId with
  | none => ([],w)
  | some entries => sendToEach p message entries w

/-! ### The system -/

inductive Call (Payload : Type) where
  | register (userId : String) (socket : Nat)
  | reregister (n : Nat) (newSocket : Nat)
  | subscribe (n : Nat) (topic : String)
  | unsubscribe (n : Nat) (topic : String)
  | unregister (userId : String) (n : Nat)
  | sendToEntry (n : Nat) (message : WebSocketMessage Payload)
  | flush (n : Nat)
  | broadcastToUser (userId : String) (message : WebSocketMessage Payload)
  /-- A socket opens or closes. -/
  | becomes (socket : Nat) (readyState : Nat)

def step (p : Platform Payload) (w : World Payload) : Call Payload → List Delivery × World Payload
  | .register userId socket => ([],register w userId socket)
  | .reregister n newSocket => ([],reregister w n newSocket)
  | .subscribe n topic => ([],subscribe w n topic)
  | .unsubscribe n topic => ([],unsubscribe w n topic)
  | .unregister userId n => ([],unregister w userId n)
  | .sendToEntry n message => sendToEntry p w n message
  | .flush n => flush p w n
  | .broadcastToUser userId message => broadcastToUser p w userId message
  | .becomes socket readyState => ([],{ w with readyState := Function.update w.readyState socket readyState })

/-! ### Entries -/

theorem queue_put (w : World Payload) (n m : Nat) (entry : ClientEntry Payload) (known : n < w.entries.length) :
    (w.put n entry).queue m = if m = n then entry.queue else w.queue m := by
  rw [World.queue,World.put,List.getElem?_set]
  by_cases own : m = n
  · simp [own,known]
  · simp [own,Ne.symm own,World.queue]

theorem socket_put (w : World Payload) (n m : Nat) (entry : ClientEntry Payload) (known : n < w.entries.length) :
    (w.put n entry).socket m = if m = n then some entry.socket else w.socket m := by
  rw [World.socket,World.put,List.getElem?_set]
  by_cases own : m = n
  · simp [own,known]
  · simp [own,Ne.symm own,World.socket]

variable {w : World Payload} {n : Nat} {entry : ClientEntry Payload}

theorem known_of_get (found : w.entries[n]? = some entry) : n < w.entries.length := (List.getElem?_eq_some_iff.mp found).1
theorem queue_of_get (found : w.entries[n]? = some entry) : w.queue n = entry.queue := by rw [World.queue,found]; rfl
theorem socket_of_get (found : w.entries[n]? = some entry) : w.socket n = some entry.socket := by rw [World.socket,found]; rfl

/-! ### What an operation does to a queue -/

def Platform.text (p : Platform Payload) (message : WebSocketMessage Payload) : Option String := (p.stringify message).toOption
def deliveredOn (n : Nat) (deliveries : List Delivery) : List String :=
  deliveries.filterMap fun d => if d.entry = n then some d.data else none
theorem deliveredOn_append (n : Nat) (first second : List Delivery) :
    deliveredOn n (first ++ second) = deliveredOn n first ++ deliveredOn n second := List.filterMap_append

/-- The queue with what is added to it is what is dropped, what is sent, and what is left. -/
def Flow (p : Platform Payload) (w : World Payload) (moved : List Delivery × World Payload) (n : Nat)
    (added gone : List (WebSocketMessage Payload)) : Prop :=
  ∃ sent, w.queue n ++ added = gone ++ (sent ++ moved.2.queue n) ∧ sent.map p.text = (deliveredOn n moved.1).map some

variable {w' : World Payload}

theorem flow_same {deliveries : List Delivery} (same : w'.queue n = w.queue n) (silent : deliveredOn n deliveries = []) :
    Flow p w (deliveries,w') n [] [] := by
  refine ⟨[],?_,?_⟩
  · simp [same]
  · simp [silent]

theorem flow_of_queue {moved : List Delivery × World Payload} {added gone : List (WebSocketMessage Payload)}
    (changed : w.queue n ++ added = gone ++ w'.queue n) (flow : Flow p w' moved n [] []) : Flow p w moved n added gone := by
  obtain ⟨sent,parts,texts⟩ := flow
  rw [List.append_nil,List.nil_append] at parts
  exact ⟨sent,by rw [changed,parts],texts⟩

variable {w'' : World Payload} {second : List Delivery}

theorem flow_then {first : List Delivery} {added gone : List (WebSocketMessage Payload)}
    (flow : Flow p w (first,w') n added gone) (next : Flow p w' (second,w'') n [] []) :
    Flow p w (first ++ second,w'') n added gone := by
  obtain ⟨sent,parts,texts⟩ := flow
  obtain ⟨more,parts',texts'⟩ := next
  simp only at parts texts parts' texts'
  rw [List.append_nil,List.nil_append] at parts'
  refine ⟨sent ++ more,?_,?_⟩
  · rw [parts,parts',List.append_assoc]
  · rw [List.map_append,texts,texts',deliveredOn_append,List.map_append]

theorem flow_behind {first : List Delivery} {added gone : List (WebSocketMessage Payload)} (same : w'.queue n = w.queue n)
    (silent : deliveredOn n first = []) (flow : Flow p w' (second,w'') n added gone) :
    Flow p w (first ++ second,w'') n added gone := by
  obtain ⟨sent,parts,texts⟩ := flow
  refine ⟨sent,?_,?_⟩
  · rw [← same,parts]
  · rw [texts,deliveredOn_append,silent,List.nil_append]

/-- The first of a queue that is full, where something is added. -/
def World.oldest (p : Platform Payload) (w : World Payload) (n : Nat) (added : List (WebSocketMessage Payload)) :
    List (WebSocketMessage Payload) :=
  if added ≠ [] ∧ p.maxQueueSize ≤ (w.queue n).length then (w.queue n ++ added).take 1 else []

theorem oldest_nil (w : World Payload) (n : Nat) : w.oldest p n [] = [] := if_neg fun full => full.1 rfl

/-! ### Sending -/

theorem sendQueue_flow (queue : List (WebSocketMessage Payload)) (attempts : Nat) :
    ∃ sent, queue = sent ++ (sendQueue p queue attempts).2.1 ∧ sent.map p.text = (sendQueue p queue attempts).1.map some := by
  induction queue generalizing attempts with
  | nil => exact ⟨[],rfl,rfl⟩
  | cons next rest ih =>
    cases text : p.stringify next with
    | error e => exact ⟨[],by simp [sendQueue,text],by simp [sendQueue,text]⟩
    | ok data =>
      by_cases accepted : p.accepts attempts = true
      · obtain ⟨sent,parts,texts⟩ := ih (attempts + 1)
        refine ⟨next :: sent,?_,?_⟩
        · simp only [sendQueue,text,accepted,↓reduceIte,List.cons_append]
          rw [← parts]
        · simp only [sendQueue,text,accepted,↓reduceIte,List.map_cons,texts]
          rw [Platform.text,text]
          rfl
      · exact ⟨[],by simp [sendQueue,text,accepted],by simp [sendQueue,text,accepted]⟩

/-- The registrations, the sockets and the number of entries stay, and what is sent is sent on the socket of its entry. -/
structure Frame (w : World Payload) (moved : List Delivery × World Payload) : Prop where
  sockets : ∀ n, moved.2.socket n = w.socket n
  users : moved.2.clientsByUser = w.clientsByUser
  size : moved.2.entries.length = w.entries.length
  sent : ∀ d ∈ moved.1, w.socket d.entry = some d.socket

theorem frame_nil (w : World Payload) : Frame w ([],w) :=
  ⟨fun _ => rfl,rfl,rfl,fun _ listed => (List.not_mem_nil listed).elim⟩

theorem frame_then {first : List Delivery} (frame : Frame w (first,w')) (next : Frame w' (second,w'')) :
    Frame w (first ++ second,w'') := by
  refine ⟨fun n => (next.sockets n).trans (frame.sockets n),next.users.trans frame.users,next.size.trans frame.size,fun d listed => ?_⟩
  rcases List.mem_append.mp listed with old | new
  · exact frame.sent d old
  · rw [← frame.sockets]
    exact next.sent d new

theorem frame_put (found : w.entries[n]? = some entry) (queue : List (WebSocketMessage Payload)) :
    Frame w ([],w.put n { entry with queue }) := by
  refine ⟨fun m => ?_,rfl,List.length_set,fun _ listed => (List.not_mem_nil listed).elim⟩
  rw [socket_put w n m _ (known_of_get found)]
  split
  next own => rw [own,socket_of_get found]
  next => rfl

theorem flush_frame (w : World Payload) (n : Nat) : Frame w (flush p w n) := by
  simp only [flush]
  cases found : w.entries[n]? with
  | none => exact frame_nil w
  | some entry =>
    simp only
    split
    · exact frame_nil w
    · have kept := frame_put found (sendQueue p entry.queue w.attempts).2.1
      refine ⟨kept.sockets,kept.users,kept.size,fun d listed => ?_⟩
      obtain ⟨data,_,rfl⟩ := List.mem_map.mp listed
      exact socket_of_get found

theorem flush_apart {w : World Payload} {n m : Nat} (apart : m ≠ n) :
    (flush p w n).2.queue m = w.queue m ∧ deliveredOn m (flush p w n).1 = [] := by
  simp only [flush]
  cases found : w.entries[n]? with
  | none => exact ⟨rfl,rfl⟩
  | some entry =>
    simp only
    split
    · exact ⟨rfl,rfl⟩
    · refine ⟨(queue_put w n m _ (known_of_get found)).trans (if_neg apart),?_⟩
      refine List.filterMap_eq_nil_iff.mpr fun d listed => ?_
      obtain ⟨data,_,rfl⟩ := List.mem_map.mp listed
      exact if_neg (Ne.symm apart)

theorem flush_flow (w : World Payload) (n m : Nat) : Flow p w (flush p w n) m [] [] := by
  by_cases own : m = n
  · subst own
    simp only [flush]
    cases found : w.entries[m]? with
    | none => exact flow_same rfl rfl
    | some entry =>
      simp only
      split
      · exact flow_same rfl rfl
      · obtain ⟨sent,parts,texts⟩ := @sendQueue_flow _ p entry.queue w.attempts
        refine ⟨sent,?_,?_⟩
        · have left : (w.put m { entry with queue := (sendQueue p entry.queue w.attempts).2.1 }).queue m =
              (sendQueue p entry.queue w.attempts).2.1 := (queue_put w m m _ (known_of_get found)).trans (if_pos rfl)
          rw [List.append_nil,List.nil_append,queue_of_get found]
          exact parts.trans (congrArg (sent ++ ·) left.symm)
        · rw [texts,deliveredOn,List.filterMap_map]
          simp
  · obtain ⟨same,silent⟩ := @flush_apart _ p w n m own
    exact flow_same same silent

theorem sendToEntry_frame (w : World Payload) (n : Nat) (message : WebSocketMessage Payload) :
    Frame w (sendToEntry p w n message) := by
  simp only [sendToEntry]
  cases found : w.entries[n]? with
  | none => exact frame_nil w
  | some entry => exact frame_then (frame_put found _) (flush_frame _ n)

theorem sendToEntry_apart {w : World Payload} {n m : Nat} (message : WebSocketMessage Payload) (apart : m ≠ n) :
    (sendToEntry p w n message).2.queue m = w.queue m ∧ deliveredOn m (sendToEntry p w n message).1 = [] := by
  simp only [sendToEntry]
  cases found : w.entries[n]? with
  | none => exact ⟨rfl,rfl⟩
  | some entry =>
    obtain ⟨same,silent⟩ := @flush_apart _ p (w.put n { entry with queue := if p.maxQueueSize < (entry.queue ++ [message]).length
      then (entry.queue ++ [message]).tail else entry.queue ++ [message] }) n m apart
    exact ⟨same.trans ((queue_put w n m _ (known_of_get found)).trans (if_neg apart)),silent⟩

theorem sendToEntry_flow (w : World Payload) (known : n < w.entries.length) (message : WebSocketMessage Payload) :
    Flow p w (sendToEntry p w n message) n [message] (w.oldest p n [message]) := by
  have found : w.entries[n]? = some (w.entries[n]) := List.getElem?_eq_getElem known
  simp only [sendToEntry,found]
  refine flow_of_queue ?_ (flush_flow _ n n)
  rw [queue_put w n n _ known,if_pos rfl,World.oldest,queue_of_get found,List.length_append,List.length_singleton]
  by_cases full : p.maxQueueSize ≤ w.entries[n].queue.length
  · rw [if_pos ⟨List.cons_ne_nil _ _,full⟩,if_pos (by omega)]
    cases w.entries[n].queue with
    | nil => rfl
    | cons first rest => rfl
  · rw [if_neg fun both => full both.2,if_neg (by omega),List.nil_append]

theorem sendToEach_frame (message : WebSocketMessage Payload) (entries : List Nat) (w : World Payload) :
    Frame w (sendToEach p message entries w) := by
  induction entries generalizing w with
  | nil => exact frame_nil w
  | cons n rest ih => exact frame_then (sendToEntry_frame w n message) (ih (sendToEntry p w n message).2)

theorem sendToEach_apart (message : WebSocketMessage Payload) {entries : List Nat} {m : Nat} (apart : m ∉ entries) (w : World Payload) :
    (sendToEach p message entries w).2.queue m = w.queue m ∧ deliveredOn m (sendToEach p message entries w).1 = [] := by
  induction entries generalizing w with
  | nil => exact ⟨rfl,rfl⟩
  | cons n rest ih =>
    obtain ⟨other,absent⟩ := List.ne_and_not_mem_of_not_mem_cons apart
    obtain ⟨same,silent⟩ := @sendToEntry_apart _ p w n m message other
    obtain ⟨same',silent'⟩ := ih absent (sendToEntry p w n message).2
    simp only [sendToEach]
    refine ⟨same'.trans same,?_⟩
    rw [deliveredOn_append,silent,silent',List.append_nil]

variable {m : Nat}

theorem sendToEach_flow (message : WebSocketMessage Payload) {entries : List Nat} (once : entries.Nodup)
    (listed : m ∈ entries) (w : World Payload) (known : m < w.entries.length) :
    Flow p w (sendToEach p message entries w) m [message] (w.oldest p m [message]) := by
  induction entries generalizing w with
  | nil => exact (List.not_mem_nil listed).elim
  | cons n rest ih =>
    obtain ⟨first,others⟩ := List.nodup_cons.mp once
    by_cases own : m = n
    · subst own
      obtain ⟨same,silent⟩ := @sendToEach_apart _ p message rest m first (sendToEntry p w m message).2
      exact flow_then (sendToEntry_flow w known message) (flow_same same silent)
    · obtain ⟨same,silent⟩ := @sendToEntry_apart _ p w n m message own
      have later := ih others ((List.mem_cons.mp listed).resolve_left own) (sendToEntry p w n message).2
        (by rw [(sendToEntry_frame w n message).size]; exact known)
      rw [World.oldest,same,← World.oldest] at later
      exact flow_behind same silent later

/-! ### Calls -/

/-- What a call queues for an entry. -/
def enqueued (w : World Payload) (n : Nat) : Call Payload → List (WebSocketMessage Payload)
  | .sendToEntry m message => if m = n ∧ n < w.entries.length then [message] else []
  | .broadcastToUser userId message => if n ∈ (w.clientsByUser.get userId).getD [] then [message] else []
  | _ => []

/-- What a call drops of a queue: the oldest where it is full, all of it where another socket takes the place. -/
def dropped (p : Platform Payload) (w : World Payload) (n : Nat) : Call Payload → List (WebSocketMessage Payload)
  | .reregister m _ => if m = n then w.queue n else []
  | call => w.oldest p n (enqueued w n call)

/-- The entries of a user are known, and each is listed once. -/
def Listed (w : World Payload) : Prop :=
  ∀ userId entries, w.clientsByUser.get userId = some entries → entries.Nodup ∧ ∀ n ∈ entries, n < w.entries.length

theorem queue_register (w : World Payload) (userId : String) (socket n : Nat) : (register w userId socket).queue n = w.queue n := by
  simp only [World.queue,register]
  by_cases known : n < w.entries.length
  · rw [List.getElem?_append_left known]
  · have absent : w.entries[n]? = none := List.getElem?_eq_none (by omega)
    rw [List.getElem?_append_right (by omega),absent]
    cases n - w.entries.length with
    | zero => rfl
    | succ k => rfl

theorem queue_reregister (w : World Payload) (m socket n : Nat) :
    (reregister w m socket).queue n = if m = n then [] else w.queue n := by
  cases found : w.entries[m]? with
  | none =>
    simp only [reregister,found]
    split
    next own => rw [← own,World.queue,found]; rfl
    next => rfl
  | some entry =>
    simp only [reregister,found]
    rw [queue_put w m n _ (known_of_get found)]
    simp [eq_comm]

theorem queue_subscriptions (found : w.entries[m]? = some entry) (subscriptions : List String) :
    (w.put m { entry with subscriptions }).queue n = w.queue n := by
  rw [queue_put w m n _ (known_of_get found)]
  split
  next own => rw [own,queue_of_get found]
  next => rfl

theorem flow_quiet (same : w'.queue n = w.queue n) : Flow p w ([],w') n [] (w.oldest p n []) := by
  rw [oldest_nil]
  exact flow_same same rfl

theorem step_flow (sound : Listed w) (call : Call Payload) (n : Nat) :
    Flow p w (step p w call) n (enqueued w n call) (dropped p w n call) := by
  cases call with
  | register userId socket => exact flow_quiet (queue_register w userId socket n)
  | reregister m newSocket =>
    refine ⟨[],?_,rfl⟩
    show w.queue n ++ [] = (if m = n then w.queue n else []) ++ ([] ++ (reregister w m newSocket).queue n)
    rw [queue_reregister]
    split
    · rfl
    · simp
  | subscribe m topic =>
    refine flow_quiet ?_
    simp only [subscribe]
    split
    · rfl
    next found => exact queue_subscriptions found _
  | unsubscribe m topic =>
    refine flow_quiet ?_
    simp only [unsubscribe]
    split
    · rfl
    next found => exact queue_subscriptions found _
  | unregister userId m =>
    refine flow_quiet ?_
    simp only [unregister]
    split
    · rfl
    · rfl
  | becomes socket readyState => exact flow_quiet rfl
  | flush m =>
    show Flow p w (flush p w m) n [] (w.oldest p n [])
    rw [oldest_nil]
    exact flush_flow w m n
  | sendToEntry m message =>
    show Flow p w (sendToEntry p w m message) n (if m = n ∧ n < w.entries.length then [message] else [])
      (w.oldest p n (if m = n ∧ n < w.entries.length then [message] else []))
    by_cases own : m = n
    · subst own
      by_cases known : m < w.entries.length
      · rw [if_pos ⟨rfl,known⟩]
        exact sendToEntry_flow w known message
      · have absent : w.entries[m]? = none := List.getElem?_eq_none (by omega)
        rw [if_neg fun both => known both.2,oldest_nil,sendToEntry,absent]
        exact flow_same rfl rfl
    · obtain ⟨same,silent⟩ := @sendToEntry_apart _ p w m n message (Ne.symm own)
      rw [if_neg fun both => own both.1,oldest_nil]
      exact flow_same same silent
  | broadcastToUser userId message =>
    show Flow p w (broadcastToUser p w userId message) n
      (if n ∈ (w.clientsByUser.get userId).getD [] then [message] else [])
      (w.oldest p n (if n ∈ (w.clientsByUser.get userId).getD [] then [message] else []))
    rw [broadcastToUser]
    cases found : w.clientsByUser.get userId with
    | none =>
      rw [Option.getD_none,if_neg List.not_mem_nil]
      exact flow_quiet rfl
    | some entries =>
      obtain ⟨once,known⟩ := sound userId entries found
      by_cases listed : n ∈ entries
      · rw [Option.getD_some,if_pos listed]
        exact sendToEach_flow message once listed w (known n listed)
      · obtain ⟨same,silent⟩ := @sendToEach_apart _ p message entries n listed w
        rw [Option.getD_some,if_neg listed,oldest_nil]
        exact flow_same same silent

/-! ### Who is registered -/

abbrev Step (Payload : Type) := Transition (World Payload) (Call Payload) (List Delivery)

def registers : Call Payload → Option String
  | .register userId _ => some userId
  | _ => none

/-- The user whose registration made an entry. -/
def owner (past : List (Step Payload)) (n : Nat) : Option String := (past.filterMap fun t => registers t.input)[n]?

def RegisteredFor (past : List (Step Payload)) (userId : String) (socket : Nat) : Prop :=
  ∃ t ∈ past, t.input = .register userId socket ∨ ∃ n, t.input = .reregister n socket ∧ owner past n = some userId
def MessageFor (past : List (Step Payload)) (userId : String) (message : WebSocketMessage Payload) : Prop :=
  ∃ t ∈ past, t.input = .broadcastToUser userId message ∨ ∃ n, t.input = .sendToEntry n message ∧ owner past n = some userId

variable {past : List (Step Payload)}

theorem owner_append {userId : String} (owned : owner past n = some userId) (more : List (Step Payload)) :
    owner (past ++ more) n = some userId := by
  rw [owner,List.filterMap_append,List.getElem?_append_left (List.getElem?_eq_some_iff.mp owned).1]
  exact owned

theorem registeredFor_append {userId : String} {socket : Nat} (registered : RegisteredFor past userId socket)
    (more : List (Step Payload)) : RegisteredFor (past ++ more) userId socket := by
  obtain ⟨t,listed,made⟩ := registered
  refine ⟨t,List.mem_append_left _ listed,made.imp_right ?_⟩
  rintro ⟨n,isInput,owned⟩
  exact ⟨n,isInput,owner_append owned more⟩

theorem messageFor_append {userId : String} {message : WebSocketMessage Payload} (sent : MessageFor past userId message)
    (more : List (Step Payload)) : MessageFor (past ++ more) userId message := by
  obtain ⟨t,listed,made⟩ := sent
  refine ⟨t,List.mem_append_left _ listed,made.imp_right ?_⟩
  rintro ⟨n,isInput,owned⟩
  exact ⟨n,isInput,owner_append owned more⟩

/-- Entries are those of the registrations, users have their own entries, and entries have sockets of their user. -/
structure Owned (past : List (Step Payload)) (w : World Payload) : Prop where
  made : (past.filterMap fun t => registers t.input).length = w.entries.length
  listed : ∀ userId entries, w.clientsByUser.get userId = some entries →
    entries.Nodup ∧ ∀ n ∈ entries, owner past n = some userId
  sockets : ∀ n socket, w.socket n = some socket → ∃ userId, owner past n = some userId ∧ RegisteredFor past userId socket

theorem owned_known (owned : Owned past w) {userId : String} (own : owner past n = some userId) : n < w.entries.length := by
  rw [← owned.made]
  exact (List.getElem?_eq_some_iff.mp own).1

theorem owned_listed (owned : Owned past w) : Listed w :=
  fun userId entries found =>
    ⟨(owned.listed userId entries found).1,fun n among => owned_known owned ((owned.listed userId entries found).2 n among)⟩

theorem owned_frame (owned : Owned past w) (t : Step Payload) (none : registers t.input = none)
    (sockets : ∀ n, w'.socket n = w.socket n) (size : w'.entries.length = w.entries.length)
    (users : ∀ userId entries, w'.clientsByUser.get userId = some entries → ∃ before, w.clientsByUser.get userId = some before ∧
      entries.Sublist before) :
    Owned (past ++ [t]) w' := by
  refine ⟨?_,fun userId entries found => ?_,fun n socket has => ?_⟩
  · rw [List.filterMap_append,List.length_append,owned.made,size]
    simp [none]
  · obtain ⟨before,was,among⟩ := users userId entries found
    obtain ⟨once,own⟩ := owned.listed userId before was
    exact ⟨once.sublist among,fun n member => owner_append (own n (among.subset member)) [t]⟩
  · rw [sockets] at has
    obtain ⟨userId,own,registered⟩ := owned.sockets n socket has
    exact ⟨userId,owner_append own [t],registeredFor_append registered [t]⟩

variable {t : Step Payload}

theorem owner_last (owned : Owned past w) {userId : String} (made : registers t.input = some userId) :
    owner (past ++ [t]) w.entries.length = some userId := by
  have size := owned.made
  rw [owner,List.filterMap_append,List.getElem?_append_right (by omega),size,Nat.sub_self]
  simp [made]

theorem socket_register (w : World Payload) (userId : String) (socket n : Nat) :
    (register w userId socket).socket n = if n = w.entries.length then some socket else w.socket n := by
  simp only [World.socket,register]
  by_cases known : n < w.entries.length
  · rw [List.getElem?_append_left known,if_neg (by omega)]
  · by_cases last : n = w.entries.length
    · simp [last]
    · have absent : w.entries[n]? = none := List.getElem?_eq_none (by omega)
      rw [if_neg last,absent,List.getElem?_eq_none]
      rw [List.length_append,List.length_singleton]
      omega

theorem owned_register (owned : Owned past w) {userId : String} {socket : Nat}
    (isRegister : t.input = .register userId socket) : Owned (past ++ [t]) (register w userId socket) := by
  have made : registers t.input = some userId := by rw [isRegister]; rfl
  have new := owner_last owned made
  refine ⟨?_,fun other entries found => ?_,fun n has held => ?_⟩
  · rw [List.filterMap_append,List.length_append,owned.made]
    simp [made,register]
  · simp only [register,get_set] at found
    split at found
    next own =>
      obtain rfl := own
      obtain rfl := Option.some.inj found
      have before : ((w.clientsByUser.get other).getD []).Nodup ∧
          ∀ n ∈ (w.clientsByUser.get other).getD [], owner past n = some other := by
        cases was : w.clientsByUser.get other with
        | none => exact ⟨List.nodup_nil,fun n member => (List.not_mem_nil member).elim⟩
        | some entries => exact owned.listed other entries was
      refine ⟨?_,fun n member => ?_⟩
      · refine List.Nodup.append before.1 (List.nodup_singleton _) (List.disjoint_singleton.mpr fun member => ?_)
        exact Nat.lt_irrefl _ (owned_known owned (before.2 _ member))
      · rcases List.mem_append.mp member with old | last
        · exact owner_append (before.2 n old) [t]
        · rw [List.mem_singleton.mp last]
          exact new
    next =>
      obtain ⟨once,own⟩ := owned.listed other entries found
      exact ⟨once,fun n member => owner_append (own n member) [t]⟩
  · rw [socket_register] at held
    split at held
    next last =>
      obtain rfl := Option.some.inj held
      rw [last]
      exact ⟨userId,new,t,List.mem_append_right _ (List.mem_singleton_self t),.inl isRegister⟩
    next =>
      obtain ⟨other,own,registered⟩ := owned.sockets n has held
      exact ⟨other,owner_append own [t],registeredFor_append registered [t]⟩

theorem owned_reregister (owned : Owned past w) {newSocket : Nat} (isReregister : t.input = .reregister m newSocket) :
    Owned (past ++ [t]) (reregister w m newSocket) := by
  have none : registers t.input = .none := by rw [isReregister]; rfl
  cases found : w.entries[m]? with
  | none =>
    rw [show reregister w m newSocket = w by rw [reregister,found]]
    exact owned_frame owned t none (fun _ => rfl) rfl fun userId entries listed => ⟨entries,listed,List.Sublist.refl _⟩
  | some entry =>
    rw [show reregister w m newSocket = w.put m { entry with socket := newSocket, queue := [] } by rw [reregister,found]]
    refine ⟨?_,fun userId entries listed => ?_,fun n socket held => ?_⟩
    · rw [List.filterMap_append,List.length_append,owned.made]
      simp [none,World.put]
    · obtain ⟨once,own⟩ := owned.listed userId entries listed
      exact ⟨once,fun n member => owner_append (own n member) [t]⟩
    · rw [socket_put w m n _ (known_of_get found)] at held
      split at held
      next own =>
        obtain rfl := Option.some.inj held
        obtain ⟨userId,owns,_⟩ := owned.sockets m entry.socket (socket_of_get found)
        rw [own]
        have still := owner_append owns [t]
        exact ⟨userId,still,t,List.mem_append_right _ (List.mem_singleton_self t),.inr ⟨m,isReregister,still⟩⟩
      next =>
        obtain ⟨userId,owns,registered⟩ := owned.sockets n socket held
        exact ⟨userId,owner_append owns [t],registeredFor_append registered [t]⟩

theorem socket_subscriptions (found : w.entries[m]? = some entry) (subscriptions : List String) :
    (w.put m { entry with subscriptions }).socket n = w.socket n := by
  rw [socket_put w m n _ (known_of_get found)]
  split
  next own => rw [own,socket_of_get found]
  next => rfl

theorem users_unregister {userId other : String} {entries : List Nat}
    (found : (unregister w userId n).clientsByUser.get other = some entries) :
    ∃ before, w.clientsByUser.get other = some before ∧ entries.Sublist before := by
  simp only [unregister] at found
  cases was : w.clientsByUser.get userId with
  | none =>
    simp only [was] at found
    exact ⟨entries,found,List.Sublist.refl _⟩
  | some before =>
    simp only [was] at found
    split at found
    · rw [get_delete] at found
      split at found
      · cases found
      · exact ⟨entries,found,List.Sublist.refl _⟩
    · rw [get_set] at found
      split at found
      next own =>
        obtain rfl := Option.some.inj found
        exact ⟨before,own ▸ was,List.filter_sublist⟩
      next => exact ⟨entries,found,List.Sublist.refl _⟩

theorem owned_step (owned : Owned past w) (call : Call Payload) :
    Owned (past ++ [transition (step p) w call]) (step p w call).2 := by
  have kept : ∀ userId entries, w.clientsByUser.get userId = some entries →
      ∃ before, w.clientsByUser.get userId = some before ∧ entries.Sublist before :=
    fun userId entries found => ⟨entries,found,List.Sublist.refl _⟩
  have sends : ∀ {moved : List Delivery × World Payload}, Frame w moved → registers call = none →
      Owned (past ++ [transition (step p) w call]) moved.2 := by
    intro moved frame none
    refine owned_frame owned _ none frame.sockets frame.size ?_
    rw [frame.users]
    exact kept
  cases call with
  | register userId socket => exact owned_register owned rfl
  | reregister m newSocket => exact owned_reregister owned rfl
  | subscribe m topic =>
    show Owned _ (subscribe w m topic)
    rw [subscribe]
    split
    · exact sends (frame_nil w) rfl
    next found => exact owned_frame owned _ rfl (fun n => socket_subscriptions found _) List.length_set kept
  | unsubscribe m topic =>
    show Owned _ (unsubscribe w m topic)
    rw [unsubscribe]
    split
    · exact sends (frame_nil w) rfl
    next found => exact owned_frame owned _ rfl (fun n => socket_subscriptions found _) List.length_set kept
  | unregister userId m =>
    refine owned_frame owned _ rfl (fun n => ?_) ?_ fun other entries found => users_unregister found
    · show (unregister w userId m).socket n = w.socket n
      rw [unregister]
      split
      · rfl
      · rfl
    · show (unregister w userId m).entries.length = w.entries.length
      rw [unregister]
      split
      · rfl
      · rfl
  | becomes socket readyState => exact owned_frame owned _ rfl (fun _ => rfl) rfl kept
  | flush m => exact sends (flush_frame w m) rfl
  | sendToEntry m message => exact sends (sendToEntry_frame w m message) rfl
  | broadcastToUser userId message =>
    refine sends (?_ : Frame w (broadcastToUser p w userId message)) rfl
    rw [broadcastToUser]
    split
    · exact frame_nil w
    · exact sendToEach_frame message _ w

/-! ### Runs -/

def deliveries (past : List (Step Payload)) : List Delivery := past.flatMap fun t => t.answer

/-- What sockets were given of an entry, in order. -/
def delivered (n : Nat) (past : List (Step Payload)) : List String := deliveredOn n (deliveries past)

/-- What was queued for an entry, in order. -/
def enqueuedTo (n : Nat) (past : List (Step Payload)) : List (WebSocketMessage Payload) :=
  past.flatMap fun t => enqueued t.before n t.input

theorem delivered_append (n : Nat) (past : List (Step Payload)) (t : Step Payload) :
    delivered n (past ++ [t]) = delivered n past ++ deliveredOn n t.answer := by
  simp [delivered,deliveries,deliveredOn_append]

theorem enqueuedTo_append (n : Nat) (past : List (Step Payload)) (t : Step Payload) :
    enqueuedTo n (past ++ [t]) = enqueuedTo n past ++ enqueued t.before n t.input := by simp [enqueuedTo]

theorem step_sent {call : Call Payload} {d : Delivery} (sent : d ∈ (step p w call).1) : w.socket d.entry = some d.socket := by
  cases call with
  | flush m => exact (flush_frame w m).sent d sent
  | sendToEntry m message => exact (sendToEntry_frame w m message).sent d sent
  | broadcastToUser userId message =>
    change d ∈ (broadcastToUser p w userId message).1 at sent
    rw [broadcastToUser] at sent
    split at sent
    · cases sent
    · exact (sendToEach_frame message _ w).sent d sent
  | _ => cases sent

theorem dropped_room (w : World Payload) (n : Nat) (call : Call Payload) (bounded : (w.queue n).length ≤ p.maxQueueSize) :
    (w.queue n).length + (enqueued w n call).length ≤ p.maxQueueSize + (dropped p w n call).length := by
  have few : (enqueued w n call).length ≤ 1 := by
    cases call with
    | sendToEntry m message =>
      simp only [enqueued]
      split <;> simp
    | broadcastToUser userId message =>
      simp only [enqueued]
      split <;> simp
    | _ => exact Nat.zero_le 1
  have room : (w.queue n).length + (enqueued w n call).length ≤ p.maxQueueSize + (w.oldest p n (enqueued w n call)).length := by
    rw [World.oldest]
    cases added : enqueued w n call with
    | nil => simpa using bounded
    | cons message more =>
      rw [added,List.length_cons] at few
      have one : more.length = 0 := by omega
      by_cases full : p.maxQueueSize ≤ (w.queue n).length
      · rw [if_pos ⟨List.cons_ne_nil _ _,full⟩,List.length_take,List.length_append,List.length_cons]
        omega
      · rw [if_neg fun both => full both.2,List.length_cons]
        omega
  cases call with
  | reregister m newSocket => exact Nat.le_trans bounded (Nat.le_add_right _ _)
  | _ => exact room

theorem enqueued_meant (owned : Owned past w) {call : Call Payload} {message : WebSocketMessage Payload}
    (listed : message ∈ enqueued w n call) :
    ∃ userId, owner past n = some userId ∧ (call = .broadcastToUser userId message ∨ call = .sendToEntry n message) := by
  cases call with
  | sendToEntry m other =>
    simp only [enqueued] at listed
    split at listed
    next both =>
      obtain rfl := List.mem_singleton.mp listed
      obtain ⟨rfl,known⟩ := both
      rw [← owned.made] at known
      exact ⟨_,List.getElem?_eq_getElem known,.inr rfl⟩
    next => cases listed
  | broadcastToUser userId other =>
    simp only [enqueued] at listed
    split at listed
    next among =>
      obtain rfl := List.mem_singleton.mp listed
      cases found : w.clientsByUser.get userId with
      | none => simp [found] at among
      | some entries =>
        rw [found,Option.getD_some] at among
        exact ⟨userId,(owned.listed userId entries found).2 n among,.inl rfl⟩
    next => cases listed
  | _ => cases listed

/-- What has been sent and what is queued, entry by entry. -/
structure Delivers (p : Platform Payload) (past : List (Step Payload)) (w : World Payload) : Prop where
  owned : Owned past w
  inOrder : ∀ n, ((delivered n past).map some ++ (w.queue n).map p.text).Sublist ((enqueuedTo n past).map p.text)
  bounded : ∀ n, (w.queue n).length ≤ p.maxQueueSize
  meant : ∀ n, ∀ message ∈ enqueuedTo n past, ∃ userId, owner past n = some userId ∧ MessageFor past userId message
  placed : ∀ d ∈ deliveries past, ∃ userId, owner past d.entry = some userId ∧ RegisteredFor past userId d.socket

theorem delivers_step (delivers : Delivers p past w) (call : Call Payload) :
    Delivers p (past ++ [transition (step p) w call]) (step p w call).2 := by
  have flows := step_flow (p := p) (owned_listed delivers.owned) call
  refine ⟨owned_step delivers.owned call,fun n => ?_,fun n => ?_,fun n message listed => ?_,fun d listed => ?_⟩
  · obtain ⟨sent,parts,texts⟩ := flows n
    rw [delivered_append,enqueuedTo_append]
    show ((delivered n past ++ deliveredOn n (step p w call).1).map some ++ ((step p w call).2.queue n).map p.text).Sublist
      ((enqueuedTo n past ++ enqueued w n call).map p.text)
    rw [List.map_append,← texts,List.append_assoc,← List.map_append]
    have kept : ((sent ++ (step p w call).2.queue n).map p.text).Sublist ((w.queue n ++ enqueued w n call).map p.text) := by
      rw [parts]
      exact (List.sublist_append_right _ _).map p.text
    refine (kept.append_left _).trans ?_
    rw [List.map_append,List.map_append,← List.append_assoc]
    exact (delivers.inOrder n).append_right _
  · obtain ⟨sent,parts,_⟩ := flows n
    have lengths := congrArg List.length parts
    have room := dropped_room (p := p) w n call (delivers.bounded n)
    simp only [List.length_append] at lengths
    omega
  · rw [enqueuedTo_append] at listed
    rcases List.mem_append.mp listed with old | new
    · obtain ⟨userId,own,sent⟩ := delivers.meant n message old
      exact ⟨userId,owner_append own _,messageFor_append sent _⟩
    · obtain ⟨userId,own,isCall⟩ := enqueued_meant delivers.owned new
      have still := owner_append own [transition (step p) w call]
      refine ⟨userId,still,_,List.mem_append_right _ (List.mem_singleton_self _),isCall.imp_right fun same => ?_⟩
      exact ⟨n,same,still⟩
  · rw [deliveries,List.flatMap_append,List.flatMap_singleton] at listed
    rcases List.mem_append.mp listed with old | new
    · obtain ⟨userId,own,registered⟩ := delivers.placed d old
      exact ⟨userId,owner_append own _,registeredFor_append registered _⟩
    · obtain ⟨userId,own,registered⟩ := delivers.owned.sockets d.entry d.socket (step_sent new)
      exact ⟨userId,owner_append own _,registeredFor_append registered _⟩

theorem run_delivers (p : Platform Payload) (readyState : Nat → Nat) (calls : List (Call Payload)) :
    Delivers p (history (step p) (World.new readyState) calls) (run (step p) (World.new readyState) calls) := by
  refine history_rec (P := Delivers p) ?_ (fun past w call delivers => delivers_step delivers call) calls
  refine ⟨⟨rfl,?_,?_⟩,fun n => List.Sublist.refl _,fun n => Nat.zero_le _,?_,?_⟩
  · rintro userId entries ⟨⟩
  · rintro n socket ⟨⟩
  · rintro n message ⟨⟩
  · rintro d ⟨⟩

/-- What a socket is given was queued for an entry of a user that the socket was registered for; each entry receives what
    was queued for it in order; queues stay within their bound; and in each step what is in a queue and what is added is,
    in order, what is dropped, what is sent and what is left, where the oldest message of a full queue is dropped as a
    newer one is added, and the whole queue as another socket takes the place. -/
theorem realtime_delivery (p : Platform Payload) (readyState : Nat → Nat) (calls : List (Call Payload)) :
    (∀ d ∈ deliveries (history (step p) (World.new readyState) calls), ∃ userId message,
      RegisteredFor (history (step p) (World.new readyState) calls) userId d.socket ∧
      MessageFor (history (step p) (World.new readyState) calls) userId message ∧
      message ∈ enqueuedTo d.entry (history (step p) (World.new readyState) calls) ∧ p.stringify message = .ok d.data) ∧
    (∀ n, ((delivered n (history (step p) (World.new readyState) calls)).map some).Sublist
      ((enqueuedTo n (history (step p) (World.new readyState) calls)).map p.text)) ∧
    (∀ n, ((run (step p) (World.new readyState) calls).queue n).length ≤ p.maxQueueSize) ∧
    ∀ t ∈ history (step p) (World.new readyState) calls, ∀ n, ∃ sent,
      t.before.queue n ++ enqueued t.before n t.input = dropped p t.before n t.input ++ (sent ++ t.after.queue n) ∧
      sent.map p.text = (deliveredOn n t.answer).map some := by
  have delivers := run_delivers p readyState calls
  refine ⟨fun d listed => ?_,fun n => (List.sublist_append_left _ _).trans (delivers.inOrder n),delivers.bounded,fun t listed n => ?_⟩
  · have received : d.data ∈ delivered d.entry (history (step p) (World.new readyState) calls) :=
      List.mem_filterMap.mpr ⟨d,listed,if_pos rfl⟩
    have among := (delivers.inOrder d.entry).subset (List.mem_append_left _ (List.mem_map_of_mem (f := some) received))
    obtain ⟨message,queued,text⟩ := List.mem_map.mp among
    obtain ⟨userId,own,meant⟩ := delivers.meant d.entry message queued
    obtain ⟨other,owns,registered⟩ := delivers.placed d listed
    obtain rfl : userId = other := Option.some.inj (own.symm.trans owns)
    refine ⟨userId,message,registered,meant,queued,?_⟩
    rw [Platform.text] at text
    cases made : p.stringify message with
    | error e =>
      rw [made] at text
      cases text
    | ok data =>
      rw [made] at text
      exact congrArg Except.ok (Option.some.inj text)
  · obtain ⟨earlier,later,split⟩ := List.append_of_mem listed
    obtain ⟨before,call,_,_,_,rfl,_⟩ := history_split split
    exact step_flow (owned_listed (run_delivers p readyState before).owned) call n

def RealtimeMessageType.name : RealtimeMessageType → String
  | .payment => "payment"
  | .wallet_update => "wallet_update"
  | .connection => "connection"
  | .delivery => "delivery"
  | .token_expiring => "token_expiring"
  | .token_expired => "token_expired"

/-- Payloads are texts, and sockets accept everything. -/
def samplePlatform : Platform String where
  maxQueueSize := DEFAULT_MAX_QUEUE_SIZE
  stringify message := .ok (JsonTexts.stringify [("type",message.type.name),("payload",message.payload),("timestamp",message.timestamp)])
  accepts _ := true

/-- A message is queued while the socket connects; then another socket takes the place, opens, and the entry is flushed. -/
def replaced : List (Call String) :=
  [.register "user-a" 0,.broadcastToUser "user-a" ⟨.payment,"p1","1970-01-01T00:00:00.000Z"⟩,.reregister 0 1,.becomes 1 SOCKET_OPEN,
    .flush 0]

theorem replaced_loses :
    (∀ t ∈ history (step samplePlatform) (World.new fun _ => 0) replaced, ∀ entry ∈ t.before.entries,
      entry.queue.length < samplePlatform.maxQueueSize) ∧
    (enqueuedTo 0 (history (step samplePlatform) (World.new fun _ => 0) replaced)).length = 1 ∧
    delivered 0 (history (step samplePlatform) (World.new fun _ => 0) replaced) = [] ∧
    (run (step samplePlatform) (World.new fun _ => 0) replaced).queue 0 = [] := by decide +kernel

/-- A message that was queued before another socket took the place is lost, although no queue was full. -/
theorem queued_lost :
    ¬ ∀ calls, (∀ t ∈ history (step samplePlatform) (World.new fun _ => 0) calls, ∀ entry ∈ t.before.entries,
        entry.queue.length < samplePlatform.maxQueueSize) →
      ∀ n, (enqueuedTo n (history (step samplePlatform) (World.new fun _ => 0) calls)).map samplePlatform.text =
        (delivered n (history (step samplePlatform) (World.new fun _ => 0) calls)).map some ++
          ((run (step samplePlatform) (World.new fun _ => 0) calls).queue n).map samplePlatform.text := by
  intro kept
  obtain ⟨roomy,one,none,empty⟩ := replaced_loses
  have all := congrArg List.length (kept replaced roomy 0)
  rw [none,empty,List.length_map,one] at all
  cases all

end StellarAlerts.ClientRegistry
