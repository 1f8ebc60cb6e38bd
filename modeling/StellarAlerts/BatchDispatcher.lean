import StellarAlerts.Histories
import StellarAlerts.IntegerText
import StellarAlerts.Numbers
import StellarAlerts.OrderedMaps

/-!
The dispatcher that gathers the notifications of a webhook target into batches. In every
run each target's batches and its buffer are what was enqueued for it, in order
(`batches_conserved`): a buffer and its one armed timer leave together, whichever of the
triggers comes first.
-/
namespace StellarAlerts.BatchDispatcher
open Histories IntegerText Numbers OrderedMaps

def DEFAULT_BATCH_MAX_SIZE : Nat := 100
def DEFAULT_BATCH_WINDOW_MS : Int := 5000
def MIN_BATCH_WINDOW_MS : Int := 1000
def MAX_BATCH_WINDOW_MS : Int := 10000

section Model
variable {Data : Type}

/-- A notification; `data` stands for it and all further fields. -/
structure BatchableNotification (Data : Type) where
  deliveryId : Option String
  event : String
  timestamp : Option String
  data : Data
deriving DecidableEq

structure BatchTarget where
  targetId : Option String
  webhookId : Option String
  url : Option String
  secret : Option String
deriving DecidableEq

/-- A target is given by its id or as a record. -/
inductive Target where
  | id (targetId : String)
  | record (target : BatchTarget)
deriving DecidableEq

structure NormalizedBatchTarget where
  targetId : String
  webhookId : Option String
  url : Option String
  secret : Option String
deriving DecidableEq

structure BatchedNotification (Data : Type) where
  deliveryId : String
  event : String
  timestamp : String
  data : Data
deriving DecidableEq

structure WebhookBatch (Data : Type) where
  target : NormalizedBatchTarget
  batchId : String
  events : List (BatchedNotification Data)
  count : Nat
  createdAt : Int
  windowStart : Int
  windowEnd : Int
deriving DecidableEq

structure BatchDispatcherOptions where
  maxBatchSize : Option Number
  windowMs : Option Number

structure TargetState (Data : Type) where
  target : NormalizedBatchTarget
  events : List (BatchedNotification Data)
  windowStart : Int
  timer : Option Nat

/-- An armed timer: its number, its delay, and what its callback has captured. -/
structure Timer where
  number : Nat
  delay : Int
  state : Nat
  targetId : String
deriving DecidableEq

def clampWindow : Number → Int
  | .finite q => min MAX_BATCH_WINDOW_MS (max MIN_BATCH_WINDOW_MS ⌊q⌋)
  | _ => DEFAULT_BATCH_WINDOW_MS

/-- A missing id falls back to the next one; an empty one does not. -/
def normalizeTarget : Target → Except String NormalizedBatchTarget
  | .id targetId => .ok ⟨targetId,none,none,none⟩
  | .record target =>
    match target.targetId.or (target.webhookId.or target.url) with
    | none | some "" => .error "BatchDispatcher requires a targetId, webhookId, or url"
    | some targetId => .ok ⟨targetId,target.webhookId,target.url,target.secret⟩

/-- The objects by number, how many there are, and the armed timers. What was emitted is kept in order. -/
structure Dispatcher (Data : Type) where
  maxBatchSize : Nat
  windowMs : Int
  states : Nat → TargetState Data
  allocated : Nat
  targets : OrderedMap String Nat
  timers : List Timer
  armed : Nat
  emitted : List (WebhookBatch Data)

def Dispatcher.new (options : BatchDispatcherOptions) : Dispatcher Data where
  maxBatchSize := (options.maxBatchSize.bind Number.positiveInteger).getD DEFAULT_BATCH_MAX_SIZE
  windowMs := (options.windowMs.map clampWindow).getD (clampWindow (.finite DEFAULT_BATCH_WINDOW_MS))
  states := fun _ => ⟨⟨"",none,none,none⟩,[],0,none⟩
  allocated := 0
  targets := .empty
  timers := []
  armed := 0
  emitted := []

/-- What the clock and the generator answer during a call. -/
structure Answers where
  deliveryId : String
  timestamp : String
  windowStart : Int
  batchId : String → String
  windowEnd : String → Int

def Dispatcher.setState (d : Dispatcher Data) (ref : Nat) (state : TargetState Data) : Dispatcher Data :=
  { d with states := Function.update d.states ref state }

/-- `{ ...target, ...stripUndefined(normalized) }` -/
def fillIn (target normalized : NormalizedBatchTarget) : NormalizedBatchTarget :=
  ⟨normalized.targetId,normalized.webhookId.or target.webhookId,normalized.url.or target.url,
   normalized.secret.or target.secret⟩

def batched (notification : BatchableNotification Data) (answers : Answers) : BatchedNotification Data where
  deliveryId :=
    match notification.deliveryId with
    | some deliveryId => if trim deliveryId.toList = [] then answers.deliveryId else deliveryId
    | none => answers.deliveryId
  event := notification.event
  timestamp := notification.timestamp.getD answers.timestamp
  data := notification.data

/-- The object of the target, which is a new one where there is none. -/
def Dispatcher.findState (d : Dispatcher Data) (normalized : NormalizedBatchTarget) (answers : Answers) :
    Nat × Dispatcher Data :=
  match d.targets.get normalized.targetId with
  | some ref => (ref,d)
  | none => (d.allocated,{ d.setState d.allocated ⟨normalized,[],answers.windowStart,none⟩ with allocated := d.allocated + 1 })

def Dispatcher.push (d : Dispatcher Data) (ref : Nat) (normalized : NormalizedBatchTarget)
    (event : BatchedNotification Data) : Dispatcher Data :=
  { d.setState ref { d.states ref with
      target := fillIn (d.states ref).target normalized, events := (d.states ref).events ++ [event] } with
    targets := d.targets.set normalized.targetId ref }

/-- `clearTimeout(state.timer); state.timer = null`, if there is a timer. -/
def Dispatcher.clearTimer (d : Dispatcher Data) (ref : Nat) : Dispatcher Data :=
  match (d.states ref).timer with
  | some number =>
    { d.setState ref { d.states ref with timer := none } with timers := d.timers.filter fun t => t.number ≠ number }
  | none => d

def batchOf (state : TargetState Data) (targetId : String) (answers : Answers) : WebhookBatch Data where
  target := state.target
  batchId := answers.batchId targetId
  events := state.events
  count := state.events.length
  createdAt := state.windowStart
  windowStart := state.windowStart
  windowEnd := answers.windowEnd targetId

def Dispatcher.flush (d : Dispatcher Data) (targetId : String) (answers : Answers) :
    Option (WebhookBatch Data) × Dispatcher Data :=
  match d.targets.get targetId with
  | none => (none,{ d with targets := d.targets.delete targetId })
  | some ref =>
    if (d.states ref).events = [] then
      (none,{ d.clearTimer ref with targets := d.targets.delete targetId })
    else
      let batch := batchOf (d.states ref) targetId answers
      (some batch,{ d.clearTimer ref with targets := d.targets.delete targetId, emitted := d.emitted ++ [batch] })

def Dispatcher.arm (d : Dispatcher Data) (ref : Nat) (targetId : String) : Dispatcher Data :=
  { d.setState ref { d.states ref with timer := some d.armed } with
    timers := d.timers ++ [⟨d.armed,d.windowMs,ref,targetId⟩], armed := d.armed + 1 }

structure Enqueued where
  targetId : String
  deliveryId : String
  batchSize : Nat
deriving DecidableEq

def Dispatcher.enqueue (d : Dispatcher Data) (target : Target) (notification : BatchableNotification Data)
    (answers : Answers) : Except String Enqueued × Dispatcher Data :=
  match normalizeTarget target with
  | .error message => (.error message,d)
  | .ok normalized =>
    let (ref,found) := d.findState normalized answers
    let event := batched notification answers
    let pushed := found.push ref normalized event
    let d' :=
      if d.maxBatchSize ≤ (pushed.states ref).events.length then (pushed.flush normalized.targetId answers).2
      else if (pushed.states ref).timer = none then pushed.arm ref normalized.targetId
      else pushed
    (.ok ⟨normalized.targetId,event.deliveryId,(d'.states ref).events.length⟩,d')

/-- The callback of a timer; one that has been cleared does not fire. -/
def Dispatcher.fire (d : Dispatcher Data) (number : Nat) (answers : Answers) : Option (WebhookBatch Data) × Dispatcher Data :=
  match d.timers.find? (fun t => t.number = number) with
  | none => (none,d)
  | some t =>
    let due := { d with timers := d.timers.filter fun t => t.number ≠ number }
    (due.setState t.state { due.states t.state with timer := none }).flush t.targetId answers

def Dispatcher.flushEach (d : Dispatcher Data) (answers : Answers) : List String → List (WebhookBatch Data) × Dispatcher Data
  | [] => ([],d)
  | targetId :: rest =>
    let (batch,d) := d.flush targetId answers
    let (others,d) := d.flushEach answers rest
    (batch.toList ++ others,d)

def Dispatcher.flushAll (d : Dispatcher Data) (answers : Answers) : List (WebhookBatch Data) × Dispatcher Data :=
  d.flushEach answers d.targets.keys

def Dispatcher.close (d : Dispatcher Data) (answers : Answers) : List (WebhookBatch Data) × Dispatcher Data :=
  let (batches,d) := d.flushAll answers
  let left := d.targets.entries.filterMap fun entry => (d.states entry.2).timer
  (batches,{ d with timers := d.timers.filter (fun t => t.number ∉ left), targets := .empty })

/-- The calls, and the firing of a timer by its number. -/
inductive Input (Data : Type) where
  | enqueue (target : Target) (notification : BatchableNotification Data)
  | fire (number : Nat)
  | flush (targetId : String)
  | flushAll
  | close

inductive Answer (Data : Type) where
  | enqueued (result : Except String Enqueued)
  | fired
  | batches (batches : List (WebhookBatch Data))

def step (d : Dispatcher Data) : Input Data × Answers → Answer Data × Dispatcher Data
  | (.enqueue target notification,answers) =>
    let (result,d) := d.enqueue target notification answers
    (.enqueued result,d)
  | (.fire number,answers) => (.fired,(d.fire number answers).2)
  | (.flush targetId,answers) =>
    let (batch,d) := d.flush targetId answers
    (.batches batch.toList,d)
  | (.flushAll,answers) =>
    let (batches,d) := d.flushAll answers
    (.batches batches,d)
  | (.close,answers) =>
    let (batches,d) := d.close answers
    (.batches batches,d)

def Dispatcher.buffered (d : Dispatcher Data) (targetId : String) : List (BatchedNotification Data) :=
  match d.targets.get targetId with
  | some ref => (d.states ref).events
  | none => []

def Dispatcher.handed (d : Dispatcher Data) (targetId : String) : List (BatchedNotification Data) :=
  (d.emitted.filter fun batch => batch.target.targetId = targetId).flatMap WebhookBatch.events

/-! ### The invariant -/

/-- A target's object. Its timer, if any, is armed for the target. -/
structure Held (d : Dispatcher Data) (targetId : String) (ref : Nat) : Prop where
  named : (d.states ref).target.targetId = targetId
  filled : (d.states ref).events ≠ []
  within : (d.states ref).events.length ≤ d.maxBatchSize
  allocated : ref < d.allocated
  timed : ∀ number, (d.states ref).timer = some number → ∃ t ∈ d.timers, t.number = number ∧ t.targetId = targetId

/-- An armed timer is the timer of the object that its target has now. -/
structure Good (d : Dispatcher Data) : Prop where
  positive : 0 < d.maxBatchSize
  held : ∀ targetId ref, d.targets.get targetId = some ref → Held d targetId ref
  current : ∀ t ∈ d.timers, d.targets.get t.targetId = some t.state ∧ (d.states t.state).timer = some t.number
  apart : ∀ t ∈ d.timers, ∀ t' ∈ d.timers, t.number = t'.number → t = t'
  below : ∀ t ∈ d.timers, t.number < d.armed
  emitted : ∀ batch ∈ d.emitted, batch.events ≠ [] ∧ batch.events.length ≤ d.maxBatchSize ∧ batch.count = batch.events.length

/-- A target waits for more with a timer that is armed. -/
def Settled (d : Dispatcher Data) (targetId : String) : Prop :=
  ∀ ref, d.targets.get targetId = some ref → (d.states ref).events.length < d.maxBatchSize ∧ (d.states ref).timer ≠ none

variable {d : Dispatcher Data} {k : String} {ref : Nat}

theorem ref_apart (good : Good d) {k' : String} {ref' : Nat} (found : d.targets.get k = some ref)
    (found' : d.targets.get k' = some ref') (apart : k' ≠ k) : ref' ≠ ref := by
  rintro rfl
  exact apart ((good.held k' ref' found').named.symm.trans (good.held k ref' found).named)

theorem buffered_of_get (found : d.targets.get k = some ref) : d.buffered k = (d.states ref).events := by
  rw [Dispatcher.buffered,found]
theorem buffered_of_none (free : d.targets.get k = none) : d.buffered k = [] := by
  rw [Dispatcher.buffered,free]

/-! ### A target that leaves -/

theorem clearTimer_cases (good : Good d) (found : d.targets.get k = some ref) :
    d.clearTimer ref = { d with
      states := Function.update d.states ref { d.states ref with timer := none }
      timers := (d.clearTimer ref).timers } ∧
    ∀ t, t ∈ (d.clearTimer ref).timers ↔ t ∈ d.timers ∧ t.targetId ≠ k := by
  have own : ∀ t ∈ d.timers, t.targetId = k → (d.states ref).timer = some t.number := by
    intro t listed named
    obtain ⟨at_,timer⟩ := good.current t listed
    rw [named,found] at at_
    rw [Option.some.inj at_]
    exact timer
  cases timer : (d.states ref).timer with
  | none =>
    have kept : d.clearTimer ref = d := by
      simp only [Dispatcher.clearTimer]
      rw [timer]
    have same : Function.update d.states ref { d.states ref with timer := none } = d.states := by
      rw [← timer]
      exact Function.update_eq_self ref d.states
    rw [kept,same]
    refine ⟨rfl,fun t => ⟨fun listed => ⟨listed,fun named => ?_⟩,And.left⟩⟩
    rw [timer] at own
    cases own t listed named
  | some number =>
    have cleared : d.clearTimer ref = { d.setState ref { d.states ref with timer := none } with
        timers := d.timers.filter fun t => t.number ≠ number } := by
      simp only [Dispatcher.clearTimer]
      rw [timer]
    rw [cleared]
    refine ⟨rfl,fun t => ?_⟩
    simp only [List.mem_filter,decide_eq_true_eq,ne_eq]
    refine and_congr_right fun listed => not_congr ⟨fun same => ?_,fun named => ?_⟩
    · obtain ⟨t',listed',number',named'⟩ := (good.held k ref found).timed number timer
      rw [good.apart t listed t' listed' (same.trans number'.symm)]
      exact named'
    · have at_ := own t listed named
      rw [timer] at at_
      exact (Option.some.inj at_).symm

def Dispatcher.release (d : Dispatcher Data) (targetId : String) (ref : Nat) (answers : Answers) : Dispatcher Data :=
  { d.clearTimer ref with
    targets := d.targets.delete targetId, emitted := d.emitted ++ [batchOf (d.states ref) targetId answers] }

theorem flush_of_filled (found : d.targets.get k = some ref) (filled : (d.states ref).events ≠ []) (answers : Answers) :
    d.flush k answers = (some (batchOf (d.states ref) k answers),d.release k ref answers) := by
  simp only [Dispatcher.flush,found]
  rw [if_neg filled]
  rfl

theorem flush_of_get (good : Good d) (found : d.targets.get k = some ref) (answers : Answers) :
    d.flush k answers = (some (batchOf (d.states ref) k answers),d.release k ref answers) :=
  flush_of_filled found (good.held k ref found).filled answers

theorem flush_of_none (free : d.targets.get k = none) (answers : Answers) : d.flush k answers = (none,d) := by
  simp only [Dispatcher.flush,free]
  rw [delete_of_none free]

theorem release_get (d : Dispatcher Data) (k : String) (ref : Nat) (answers : Answers) (k' : String) :
    (d.release k ref answers).targets.get k' = if k' = k then none else d.targets.get k' :=
  get_delete d.targets k k'

section Release
variable {d : Dispatcher Data} (good : Good d) {k : String} {ref : Nat} (found : d.targets.get k = some ref)
  (answers : Answers)
include good found

theorem release_states {k' : String} {ref' : Nat} (found' : d.targets.get k' = some ref') (apart : k' ≠ k) :
    (d.release k ref answers).states ref' = d.states ref' := by
  obtain ⟨cleared,_⟩ := clearTimer_cases good found
  rw [Dispatcher.release,cleared]
  exact Function.update_of_ne (ref_apart good found found' apart) _ _

theorem release_maxBatchSize : (d.release k ref answers).maxBatchSize = d.maxBatchSize := by
  rw [Dispatcher.release,(clearTimer_cases good found).1]

theorem release_settled {k' : String} (settled : Settled d k') : Settled (d.release k ref answers) k' := by
  intro ref' found'
  rw [release_get] at found'
  by_cases own : k' = k
  · rw [if_pos own] at found'
    cases found'
  · rw [if_neg own] at found'
    rw [release_states good found answers found' own,release_maxBatchSize good found answers]
    exact settled ref' found'

theorem release_good : Good (d.release k ref answers) := by
  obtain ⟨cleared,timers⟩ := clearTimer_cases good found
  have states := fun {k'} {ref'} => @release_states _ d good k ref found answers k' ref'
  have size := release_maxBatchSize good found answers
  constructor
  · exact size.symm ▸ good.positive
  · intro k' ref' found'
    rw [release_get] at found'
    by_cases own : k' = k
    · rw [if_pos own] at found'
      cases found'
    · rw [if_neg own] at found'
      obtain ⟨named,filled,within,allocated,timed⟩ := good.held k' ref' found'
      rw [← states found' own] at named filled within timed
      refine ⟨named,filled,within.trans size.ge,?_,fun number timer => ?_⟩
      · rw [Dispatcher.release,cleared]
        exact allocated
      · obtain ⟨t,listed,same,at_⟩ := timed number timer
        exact ⟨t,(timers t).mpr ⟨listed,fun there => own (at_.symm.trans there)⟩,same,at_⟩
  · intro t listed
    obtain ⟨listed,apart⟩ := (timers t).mp listed
    obtain ⟨at_,timer⟩ := good.current t listed
    rw [release_get,if_neg apart,states at_ apart]
    exact ⟨at_,timer⟩
  · intro t listed t' listed'
    exact good.apart t ((timers t).mp listed).1 t' ((timers t').mp listed').1
  · intro t listed
    rw [Dispatcher.release,cleared]
    exact good.below t ((timers t).mp listed).1
  · intro batch listed
    rw [size]
    rcases List.mem_append.mp listed with earlier | last
    · exact good.emitted batch earlier
    · obtain rfl := List.mem_singleton.mp last
      have held := good.held k ref found
      exact ⟨held.filled,held.within,rfl⟩

theorem release_conserves (k' : String) :
    (d.release k ref answers).handed k' ++ (d.release k ref answers).buffered k' = d.handed k' ++ d.buffered k' := by
  have named := (good.held k ref found).named
  have emitted : (d.release k ref answers).handed k' = d.handed k' ++ if k' = k then (d.states ref).events else [] := by
    rw [Dispatcher.handed,Dispatcher.release,List.filter_append,List.flatMap_append]
    by_cases own : k' = k
    · simp [Dispatcher.handed,batchOf,named,own]
    · simp [Dispatcher.handed,batchOf,named,own,Ne.symm own]
  rw [emitted]
  by_cases own : k' = k
  · subst own
    have gone : (d.release k' ref answers).targets.get k' = none := by rw [release_get,if_pos rfl]
    rw [if_pos rfl,buffered_of_none gone,buffered_of_get found,List.append_nil]
  · rw [if_neg own,List.append_nil,Dispatcher.buffered,Dispatcher.buffered,release_get,if_neg own]
    cases found' : d.targets.get k' with
    | none => rfl
    | some ref' =>
      simp only
      rw [release_states good found answers found' own]

end Release

/-! ### A target that is given one more event -/

/-- The dispatcher with one more event in the buffer of a target, before it is flushed or armed. -/
def Dispatcher.add (d : Dispatcher Data) (normalized : NormalizedBatchTarget) (event : BatchedNotification Data)
    (answers : Answers) : Nat × Dispatcher Data :=
  let (ref,found) := d.findState normalized answers
  (ref,found.push ref normalized event)

/-- All that this does. -/
structure Added (d d' : Dispatcher Data) (k : String) (ref : Nat) (event : BatchedNotification Data) : Prop where
  size : d'.maxBatchSize = d.maxBatchSize
  timers : d'.timers = d.timers
  armed : d'.armed = d.armed
  emitted : d'.emitted = d.emitted
  allocated : d.allocated ≤ d'.allocated ∧ ref < d'.allocated
  targets : ∀ k', d'.targets.get k' = if k' = k then some ref else d.targets.get k'
  named : (d'.states ref).target.targetId = k
  events : (d'.states ref).events = d.buffered k ++ [event]
  timer : d.targets.get k = some ref ∧ (d'.states ref).timer = (d.states ref).timer ∨
    d.targets.get k = none ∧ (d'.states ref).timer = none
  states : ∀ k' ref', k' ≠ k → d.targets.get k' = some ref' → d'.states ref' = d.states ref'

theorem added (good : Good d) (normalized : NormalizedBatchTarget) (event : BatchedNotification Data) (answers : Answers) :
    Added d (d.add normalized event answers).2 normalized.targetId (d.add normalized event answers).1 event := by
  cases found : d.targets.get normalized.targetId with
  | some ref =>
    have known : d.add normalized event answers = (ref,d.push ref normalized event) := by
      simp only [Dispatcher.add,Dispatcher.findState,found]
    rw [known]
    constructor
    case size | timers | armed | emitted => rfl
    case allocated => exact ⟨Nat.le_refl _,(good.held _ ref found).allocated⟩
    case targets => exact fun k' => get_set d.targets _ k' ref
    case named => simp [Dispatcher.push,Dispatcher.setState,fillIn]
    case events => simp [Dispatcher.push,Dispatcher.setState,buffered_of_get found]
    case timer => simp [Dispatcher.push,Dispatcher.setState,found]
    case states =>
      intro k' ref' apart found'
      exact Function.update_of_ne (ref_apart good found found' apart) _ _
  | none =>
    have new : d.add normalized event answers = (d.allocated,
        Dispatcher.push { d.setState d.allocated ⟨normalized,[],answers.windowStart,none⟩ with allocated := d.allocated + 1 }
          d.allocated normalized event) := by
      simp only [Dispatcher.add,Dispatcher.findState,found]
    rw [new]
    constructor
    case size | timers | armed | emitted => rfl
    case allocated => exact ⟨Nat.le_succ _,Nat.lt_succ_self _⟩
    case targets => exact fun k' => get_set d.targets _ k' d.allocated
    case named => simp [Dispatcher.push,Dispatcher.setState,fillIn]
    case events => simp [Dispatcher.push,Dispatcher.setState,buffered_of_none found]
    case timer => simp [Dispatcher.push,Dispatcher.setState,found]
    case states =>
      intro k' ref' apart found'
      have older : ref' ≠ d.allocated := Nat.ne_of_lt (good.held k' ref' found').allocated
      simp [Dispatcher.push,Dispatcher.setState,older]

section Added
variable {d d' : Dispatcher Data} (good : Good d) {k : String} {ref : Nat} {event : BatchedNotification Data}
  (more : Added d d' k ref event)
include more

theorem added_get : d'.targets.get k = some ref := by rw [more.targets,if_pos rfl]
theorem added_get_other {k' : String} (apart : k' ≠ k) : d'.targets.get k' = d.targets.get k' := by
  rw [more.targets,if_neg apart]

include good in
theorem added_good (settled : Settled d k) : Good d' := by
  have within : (d'.states ref).events.length ≤ d'.maxBatchSize := by
    rw [more.events,more.size,List.length_append,List.length_singleton]
    cases found : d.targets.get k with
    | none =>
      have positive := good.positive
      rw [buffered_of_none found,List.length_nil]
      omega
    | some ref' =>
      have short := (settled ref' found).1
      rw [buffered_of_get found]
      omega
  constructor
  · exact more.size.symm ▸ good.positive
  · intro k' ref' found'
    by_cases own : k' = k
    · subst own
      rw [added_get more] at found'
      obtain rfl := Option.some.inj found'
      refine ⟨more.named,by simp [more.events],within,more.allocated.2,fun number timer => ?_⟩
      rcases more.timer with ⟨found,same⟩ | ⟨_,none_⟩
      · rw [same] at timer
        rw [more.timers]
        exact (good.held k' ref found).timed number timer
      · rw [none_] at timer
        cases timer
    · rw [added_get_other more own] at found'
      obtain ⟨named,filled,short,allocated,timed⟩ := good.held k' ref' found'
      rw [← more.states k' ref' own found'] at named filled short timed
      refine ⟨named,filled,short.trans more.size.ge,Nat.lt_of_lt_of_le allocated more.allocated.1,?_⟩
      rw [more.timers]
      exact timed
  · intro t listed
    rw [more.timers] at listed
    obtain ⟨at_,timer⟩ := good.current t listed
    by_cases own : t.targetId = k
    · rw [own] at at_
      rcases more.timer with ⟨found,same⟩ | ⟨free,_⟩
      · rw [found] at at_
        obtain rfl := Option.some.inj at_
        exact ⟨by rw [own,added_get more],same.trans timer⟩
      · rw [free] at at_
        cases at_
    · rw [added_get_other more own,more.states _ _ own at_]
      exact ⟨at_,timer⟩
  · rw [more.timers]
    exact good.apart
  · rw [more.timers,more.armed]
    exact good.below
  · rw [more.emitted,more.size]
    exact good.emitted

theorem added_settled {k' : String} (apart : k' ≠ k) (settled : Settled d k') : Settled d' k' := by
  intro ref' found'
  rw [added_get_other more apart] at found'
  rw [more.states k' ref' apart found',more.size]
  exact settled ref' found'

theorem added_conserves (k' : String) :
    d'.handed k' ++ d'.buffered k' = (d.handed k' ++ d.buffered k') ++ if k' = k then [event] else [] := by
  have handed : d'.handed k' = d.handed k' := by rw [Dispatcher.handed,more.emitted,Dispatcher.handed]
  rw [handed,List.append_assoc]
  congr 1
  by_cases own : k' = k
  · subst own
    rw [if_pos rfl,buffered_of_get (added_get more),more.events]
  · rw [if_neg own,List.append_nil,Dispatcher.buffered,Dispatcher.buffered,added_get_other more own]
    cases found' : d.targets.get k' with
    | none => rfl
    | some ref' =>
      simp only
      rw [more.states k' ref' own found']

end Added

theorem arm_conserves (d : Dispatcher Data) (k : String) (ref : Nat) (k' : String) :
    (d.arm ref k).handed k' ++ (d.arm ref k).buffered k' = d.handed k' ++ d.buffered k' := by
  have buffered : (d.arm ref k).buffered k' = d.buffered k' := by
    have targets : (d.arm ref k).targets = d.targets := rfl
    cases found' : d.targets.get k' with
    | none => rw [buffered_of_none found',buffered_of_none (targets ▸ found')]
    | some ref' =>
      rw [buffered_of_get found',buffered_of_get (targets ▸ found')]
      by_cases own : ref' = ref
      · subst own
        simp [Dispatcher.arm,Dispatcher.setState]
      · simp [Dispatcher.arm,Dispatcher.setState,own]
  rw [buffered]
  rfl

section Arm
variable {d : Dispatcher Data} (good : Good d) {k : String} {ref : Nat} (found : d.targets.get k = some ref)
include good found

theorem arm_states {k' : String} {ref' : Nat} (found' : d.targets.get k' = some ref') (apart : k' ≠ k) :
    (d.arm ref k).states ref' = d.states ref' := Function.update_of_ne (ref_apart good found found' apart) _ _

theorem arm_good (unarmed : (d.states ref).timer = none) : Good (d.arm ref k) := by
  have states := fun {k'} {ref'} => @arm_states _ d good k ref found k' ref'
  have own : (d.arm ref k).states ref = { d.states ref with timer := some d.armed } := Function.update_self ..
  have timers : (d.arm ref k).timers = d.timers ++ [⟨d.armed,d.windowMs,ref,k⟩] := rfl
  have elsewhere : ∀ t ∈ d.timers, t.targetId ≠ k := by
    rintro t listed rfl
    obtain ⟨at_,timer⟩ := good.current t listed
    rw [found] at at_
    rw [← Option.some.inj at_,unarmed] at timer
    cases timer
  constructor
  · exact good.positive
  · intro k' ref' found'
    by_cases same : k' = k
    · subst same
      obtain rfl := Option.some.inj (found.symm.trans found')
      have held := good.held k' ref found
      refine ⟨?_,?_,?_,held.allocated,fun number timer => ?_⟩
      · rw [own]
        exact held.named
      · rw [own]
        exact held.filled
      · rw [own]
        exact held.within
      · rw [own] at timer
        exact ⟨⟨d.armed,d.windowMs,ref,k'⟩,by simp [timers],Option.some.inj timer,rfl⟩
    · obtain ⟨named,filled,within,allocated,timed⟩ := good.held k' ref' found'
      rw [← states found' same] at named filled within timed
      refine ⟨named,filled,within,allocated,fun number timer => ?_⟩
      obtain ⟨t,listed,at_⟩ := timed number timer
      exact ⟨t,List.mem_append_left _ listed,at_⟩
  · intro t listed
    rcases List.mem_append.mp listed with old | new
    · obtain ⟨at_,timer⟩ := good.current t old
      rw [states at_ (elsewhere t old)]
      exact ⟨at_,timer⟩
    · obtain rfl := List.mem_singleton.mp new
      exact ⟨found,by rw [own]⟩
  · intro t listed t' listed' same
    rcases List.mem_append.mp listed with old | new <;> rcases List.mem_append.mp listed' with old' | new'
    · exact good.apart t old t' old' same
    · obtain rfl := List.mem_singleton.mp new'
      exact absurd same (Nat.ne_of_lt (good.below t old))
    · obtain rfl := List.mem_singleton.mp new
      exact absurd same.symm (Nat.ne_of_lt (good.below t' old'))
    · rw [List.mem_singleton.mp new,List.mem_singleton.mp new']
  · intro t listed
    rcases List.mem_append.mp listed with old | new
    · exact Nat.lt_succ_of_lt (good.below t old)
    · obtain rfl := List.mem_singleton.mp new
      exact Nat.lt_succ_self _
  · exact good.emitted

theorem arm_settled {k' : String} (settled : k' ≠ k → Settled d k')
    (short : (d.states ref).events.length < d.maxBatchSize) : Settled (d.arm ref k) k' := by
  intro ref' found'
  by_cases own : k' = k
  · subst own
    obtain rfl := Option.some.inj (found.symm.trans found')
    have at_ : (d.arm ref k').states ref = { d.states ref with timer := some d.armed } := Function.update_self ..
    rw [at_]
    exact ⟨short,nofun⟩
  · rw [arm_states good found found' own]
    exact settled own ref' found'

end Arm

/-! ### Calls -/

/-- Between two calls every target that is there waits for more. -/
structure Sound (d : Dispatcher Data) : Prop where
  good : Good d
  settled : ∀ targetId, Settled d targetId

/-- A move between sound dispatchers that gives the targets further events. -/
structure Moves (further : String → List (BatchedNotification Data)) (d d' : Dispatcher Data) : Prop where
  sound : Sound d'
  size : d'.maxBatchSize = d.maxBatchSize
  conserves : ∀ k, d'.handed k ++ d'.buffered k = (d.handed k ++ d.buffered k) ++ further k

theorem moves_refl (sound : Sound d) : Moves (fun _ => []) d d :=
  ⟨sound,rfl,fun _ => (List.append_nil _).symm⟩

theorem moves_trans {further further' : String → List (BatchedNotification Data)} {d' d'' : Dispatcher Data}
    (first : Moves further d d') (second : Moves further' d' d'') : Moves (fun k => further k ++ further' k) d d'' :=
  ⟨second.sound,second.size.trans first.size,fun k => by rw [second.conserves,first.conserves,List.append_assoc]⟩

theorem flush_moves (sound : Sound d) (k : String) (answers : Answers) :
    Moves (fun _ => []) d (d.flush k answers).2 ∧
    (d.flush k answers).2.emitted = d.emitted ++ (d.flush k answers).1.toList ∧
    ∀ k', (d.flush k answers).2.targets.get k' = if k' = k then none else d.targets.get k' := by
  cases found : d.targets.get k with
  | none =>
    rw [flush_of_none found]
    refine ⟨moves_refl sound,by simp,fun k' => ?_⟩
    by_cases own : k' = k
    · rw [if_pos own,own,found]
    · rw [if_neg own]
  | some ref =>
    rw [flush_of_get sound.good found]
    refine ⟨⟨⟨release_good sound.good found answers,?_⟩,release_maxBatchSize sound.good found answers,?_⟩,rfl,
      release_get d k ref answers⟩
    · exact fun k' => release_settled sound.good found answers (sound.settled k')
    · exact fun k' => by rw [release_conserves sound.good found,List.append_nil]

theorem enqueue_of_ok {target : Target} {normalized : NormalizedBatchTarget} (names : normalizeTarget target = .ok normalized)
    (d : Dispatcher Data) (notification : BatchableNotification Data) (answers : Answers) :
    (d.enqueue target notification answers).2 =
      let (ref,d') := d.add normalized (batched notification answers) answers
      if d.maxBatchSize ≤ (d'.states ref).events.length then (d'.flush normalized.targetId answers).2
      else if (d'.states ref).timer = none then d'.arm ref normalized.targetId
      else d' := by
  simp only [Dispatcher.enqueue,names]
  rfl

theorem enqueue_moves (sound : Sound d) {target : Target} {normalized : NormalizedBatchTarget}
    (names : normalizeTarget target = .ok normalized) (notification : BatchableNotification Data) (answers : Answers) :
    Moves (fun k => if k = normalized.targetId then [batched notification answers] else []) d
      (d.enqueue target notification answers).2 := by
  rw [enqueue_of_ok names]
  have more := added sound.good normalized (batched notification answers) answers
  generalize d.add normalized (batched notification answers) answers = result at more ⊢
  obtain ⟨ref,d'⟩ := result
  have good := added_good sound.good more (sound.settled _)
  have found := added_get more
  have others : ∀ k, k ≠ normalized.targetId → Settled d' k := fun k apart => added_settled more apart (sound.settled k)
  simp only
  by_cases full : d.maxBatchSize ≤ (d'.states ref).events.length
  · rw [if_pos full,flush_of_get good found]
    refine ⟨⟨release_good good found answers,fun k => ?_⟩,?_,fun k => ?_⟩
    · by_cases own : k = normalized.targetId
      · intro ref' found'
        rw [release_get,if_pos own] at found'
        cases found'
      · exact release_settled good found answers (others k own)
    · exact (release_maxBatchSize good found answers).trans more.size
    · rw [release_conserves good found,added_conserves more]
  · have short : (d'.states ref).events.length < d'.maxBatchSize := by
      rw [more.size]
      omega
    rw [if_neg full]
    by_cases unarmed : (d'.states ref).timer = none
    · rw [if_pos unarmed]
      refine ⟨⟨arm_good good found unarmed,fun k => arm_settled good found (others k) short⟩,more.size,fun k => ?_⟩
      rw [arm_conserves,added_conserves more]
    · rw [if_neg unarmed]
      refine ⟨⟨good,fun k => ?_⟩,more.size,added_conserves more⟩
      by_cases own : k = normalized.targetId
      · intro ref' found'
        rw [own,found] at found'
        obtain rfl := Option.some.inj found'
        exact ⟨short,unarmed⟩
      · exact others k own

theorem fire_eq_flush (good : Good d) {t : Timer} (listed : t ∈ d.timers) (answers : Answers) :
    d.fire t.number answers = d.flush t.targetId answers := by
  obtain ⟨found,timer⟩ := good.current t listed
  have search : d.timers.find? (fun u => u.number = t.number) = some t := by
    cases result : d.timers.find? (fun u => u.number = t.number) with
    | none =>
      have absent := List.find?_eq_none.mp result t listed
      simp at absent
    | some u =>
      have same : u.number = t.number := by simpa using List.find?_some result
      rw [good.apart u (List.mem_of_find?_eq_some result) t listed same]
  have cleared : d.clearTimer t.state = { d.setState t.state { d.states t.state with timer := none } with
      timers := d.timers.filter fun u => u.number ≠ t.number } := by
    simp only [Dispatcher.clearTimer]
    rw [timer]
  have again : (d.clearTimer t.state).clearTimer t.state = d.clearTimer t.state := by
    have unarmed : ((d.clearTimer t.state).states t.state).timer = none := by
      rw [cleared]
      simp [Dispatcher.setState]
    generalize d.clearTimer t.state = d' at unarmed
    simp only [Dispatcher.clearTimer]
    rw [unarmed]
  have fired : d.fire t.number answers = (d.clearTimer t.state).flush t.targetId answers := by
    rw [cleared]
    simp only [Dispatcher.fire,search]
    rfl
  have kept : (d.clearTimer t.state).targets.get t.targetId = some t.state := by
    rw [cleared]
    exact found
  have state : (d.clearTimer t.state).states t.state = { d.states t.state with timer := none } := by
    rw [cleared]
    exact Function.update_self ..
  have emitted : (d.clearTimer t.state).emitted = d.emitted ∧ (d.clearTimer t.state).targets = d.targets := by
    rw [cleared]
    exact ⟨rfl,rfl⟩
  have filled : ((d.clearTimer t.state).states t.state).events ≠ [] := by
    rw [state]
    exact (good.held t.targetId t.state found).filled
  rw [fired,flush_of_get good found,flush_of_filled kept filled,state,Dispatcher.release,again,state,emitted.1,emitted.2]
  rfl

theorem fire_moves (sound : Sound d) (number : Nat) (answers : Answers) :
    Moves (fun _ => []) d (d.fire number answers).2 := by
  cases search : d.timers.find? (fun t => t.number = number) with
  | none =>
    have idle : d.fire number answers = (none,d) := by
      simp only [Dispatcher.fire,search]
    rw [idle]
    exact moves_refl sound
  | some t =>
    have same : t.number = number := by simpa using List.find?_some search
    rw [← same,fire_eq_flush sound.good (List.mem_of_find?_eq_some search)]
    exact (flush_moves sound t.targetId answers).1

theorem flushEach_moves (sound : Sound d) (answers : Answers) (ids : List String) :
    Moves (fun _ => []) d (d.flushEach answers ids).2 ∧
    (d.flushEach answers ids).2.emitted = d.emitted ++ (d.flushEach answers ids).1 ∧
    ∀ k, (d.flushEach answers ids).2.targets.get k = if k ∈ ids then none else d.targets.get k := by
  induction ids generalizing d with
  | nil => exact ⟨moves_refl sound,by simp [Dispatcher.flushEach],fun k => by simp [Dispatcher.flushEach]⟩
  | cons targetId rest ih =>
    obtain ⟨first,emitted,gone⟩ := flush_moves sound targetId answers
    obtain ⟨later,emitted',gone'⟩ := ih first.sound
    refine ⟨moves_trans first later,?_,fun k => ?_⟩
    · simp only [Dispatcher.flushEach]
      rw [emitted',emitted,List.append_assoc]
    · simp only [Dispatcher.flushEach]
      rw [gone',gone]
      by_cases own : k = targetId
      · simp [own]
      · simp [own]

/-- Nothing is left of any target. -/
structure Empty (d : Dispatcher Data) : Prop where
  targets : d.targets.entries = []
  timers : d.timers = []

theorem empty_of_free (good : Good d) (free : ∀ k, d.targets.get k = none) : Empty d := by
  refine ⟨entries_nil free,List.eq_nil_iff_forall_not_mem.mpr fun t listed => ?_⟩
  have found := (good.current t listed).1
  rw [free] at found
  cases found

theorem flushAll_moves (sound : Sound d) (answers : Answers) :
    Moves (fun _ => []) d (d.flushAll answers).2 ∧
    (d.flushAll answers).2.emitted = d.emitted ++ (d.flushAll answers).1 ∧ Empty (d.flushAll answers).2 := by
  obtain ⟨moves,emitted,gone⟩ := flushEach_moves sound answers d.targets.keys
  refine ⟨moves,emitted,empty_of_free moves.sound.good fun k => ?_⟩
  by_cases listed : k ∈ d.targets.keys
  · exact (gone k).trans (if_pos listed)
  · exact ((gone k).trans (if_neg listed)).trans (get_eq_none.mpr listed)

theorem close_eq_flushAll (sound : Sound d) (answers : Answers) : d.close answers = d.flushAll answers := by
  obtain ⟨_,_,targets,timers⟩ := flushAll_moves sound answers
  have cleared : (d.flushAll answers).2.targets = .empty := eq_of_entries targets
  unfold Dispatcher.close
  generalize d.flushAll answers = result at timers cleared ⊢
  obtain ⟨batches,d'⟩ := result
  simp only at timers cleared ⊢
  rw [timers,List.filter_nil,← timers,← cleared]

/-! ### Runs -/

def eventsOf (targetId : String) : Input Data × Answers → List (BatchedNotification Data)
  | (.enqueue target notification,answers) =>
    match normalizeTarget target with
    | .ok normalized => if targetId = normalized.targetId then [batched notification answers] else []
    | .error _ => []
  | _ => []

theorem step_moves (sound : Sound d) (i : Input Data × Answers) :
    Moves (fun k => eventsOf k i) d (step d i).2 ∧
    ∀ batches, (step d i).1 = .batches batches → (step d i).2.emitted = d.emitted ++ batches := by
  obtain ⟨call,answers⟩ := i
  cases call with
  | enqueue target notification =>
    refine ⟨?_,nofun⟩
    cases names : normalizeTarget target with
    | error message =>
      have refused : step d (.enqueue target notification,answers) = (.enqueued (.error message),d) := by
        simp only [step,Dispatcher.enqueue,names]
      have none_ : (fun k => eventsOf k (.enqueue target notification,answers)) = fun _ => [] := by
        funext k
        simp only [eventsOf,names]
      rw [refused,none_]
      exact moves_refl sound
    | ok normalized =>
      have one : (fun k => eventsOf k (.enqueue target notification,answers)) =
          fun k => if k = normalized.targetId then [batched notification answers] else [] := by
        funext k
        simp only [eventsOf,names]
      rw [one]
      exact enqueue_moves sound names notification answers
  | fire number => exact ⟨fire_moves sound number answers,nofun⟩
  | flush targetId =>
    obtain ⟨moves,emitted,_⟩ := flush_moves sound targetId answers
    refine ⟨moves,fun batches returned => ?_⟩
    obtain rfl := Answer.batches.inj returned
    exact emitted
  | flushAll =>
    obtain ⟨moves,emitted,_⟩ := flushAll_moves sound answers
    refine ⟨moves,fun batches returned => ?_⟩
    obtain rfl := Answer.batches.inj returned
    exact emitted
  | close =>
    obtain ⟨moves,emitted,_⟩ := flushAll_moves sound answers
    have same : step d (.close,answers) = step d (.flushAll,answers) := by
      simp only [step,close_eq_flushAll sound]
    rw [same]
    refine ⟨moves,fun batches returned => ?_⟩
    obtain rfl := Answer.batches.inj returned
    exact emitted

theorem new_sound (options : BatchDispatcherOptions) : Sound (Dispatcher.new options : Dispatcher Data) := by
  have positive : 0 < (Dispatcher.new options : Dispatcher Data).maxBatchSize := by
    simp only [Dispatcher.new]
    cases size : options.maxBatchSize.bind Number.positiveInteger with
    | none => decide
    | some n =>
      obtain ⟨x,_,value⟩ := Option.bind_eq_some_iff.mp size
      exact positiveInteger_pos value
  exact ⟨⟨positive,nofun,nofun,nofun,nofun,nofun⟩,nofun⟩

theorem run_moves (sound : Sound d) (inputs : List (Input Data × Answers)) :
    Moves (fun k => inputs.flatMap (eventsOf k)) d (run step d inputs) := by
  induction inputs generalizing d with
  | nil => exact moves_refl sound
  | cons i rest ih =>
    have first := (step_moves sound i).1
    exact moves_trans first (ih first.sound)

theorem timer_of_buffered (sound : Sound d) (waiting : d.buffered k ≠ []) :
    ∃ t ∈ d.timers, t.targetId = k ∧ ∀ answers, ∃ batch,
      (d.fire t.number answers).2.emitted = d.emitted ++ [batch] ∧ batch.target.targetId = k ∧
        batch.events = d.buffered k := by
  cases found : d.targets.get k with
  | none => exact absurd (buffered_of_none found) waiting
  | some ref =>
    obtain ⟨number,timer⟩ := Option.ne_none_iff_exists'.mp (sound.settled k ref found).2
    have held := sound.good.held k ref found
    obtain ⟨t,listed,_,named⟩ := held.timed number timer
    refine ⟨t,listed,named,fun answers => ⟨batchOf (d.states ref) k answers,?_,held.named,(buffered_of_get found).symm⟩⟩
    rw [fire_eq_flush sound.good listed,named,flush_of_get sound.good found]
    rfl

/-- In every run each target's batches and then its buffer are what was enqueued for it, in order, and no batch is empty or too large.
    What is buffered will be handed over by a timer, a close leaves nothing, and what a flush returns it has emitted. -/
theorem batches_conserved (options : BatchDispatcherOptions) (inputs : List (Input Data × Answers)) :
    let d := run step (Dispatcher.new options) inputs
    (∀ k, d.handed k ++ d.buffered k = inputs.flatMap (eventsOf k)) ∧
    (∀ batch ∈ d.emitted, batch.events ≠ [] ∧ batch.count = batch.events.length ∧
      batch.events.length ≤ (Dispatcher.new options : Dispatcher Data).maxBatchSize) ∧
    (∀ k, d.buffered k ≠ [] → ∃ t ∈ d.timers, t.targetId = k ∧ ∀ answers, ∃ batch,
      (d.fire t.number answers).2.emitted = d.emitted ++ [batch] ∧ batch.target.targetId = k ∧
        batch.events = d.buffered k) ∧
    (∀ answers, Empty (d.close answers).2 ∧ ∀ k, (d.close answers).2.buffered k = [] ∧
      (d.close answers).2.handed k = inputs.flatMap (eventsOf k)) ∧
    ∀ i batches, (step d i).1 = .batches batches → (step d i).2.emitted = d.emitted ++ batches := by
  intro d
  have moves : Moves (fun k => inputs.flatMap (eventsOf k)) (Dispatcher.new options) d := run_moves (new_sound options) inputs
  have total : ∀ k, d.handed k ++ d.buffered k = inputs.flatMap (eventsOf k) := fun k => moves.conserves k
  refine ⟨total,fun batch listed => ?_,fun k => timer_of_buffered moves.sound,fun answers => ?_,
    fun i => (step_moves moves.sound i).2⟩
  · obtain ⟨filled,within,count⟩ := moves.sound.good.emitted batch listed
    exact ⟨filled,count,moves.size ▸ within⟩
  · rw [close_eq_flushAll moves.sound]
    obtain ⟨flushed,_,empty⟩ := flushAll_moves moves.sound answers
    refine ⟨empty,fun k => ?_⟩
    have none_ : (d.flushAll answers).2.buffered k = [] := by
      rw [Dispatcher.buffered,show (d.flushAll answers).2.targets = .empty from eq_of_entries empty.targets]
      rfl
    have kept := flushed.conserves k
    rw [none_,List.append_nil,List.append_nil,total] at kept
    exact ⟨none_,kept⟩

end Model
end StellarAlerts.BatchDispatcher
