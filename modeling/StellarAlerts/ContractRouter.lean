import StellarAlerts.OrderedMaps
import StellarAlerts.SorobanChain
import StellarAlerts.SorobanPolling

/-!
The router of contract events. No event is handed out twice, and as long as no answer
ends within a ledger of one of its contracts, none is left out (`router_exact`).
-/
namespace StellarAlerts.ContractRouter
open Histories OrderedMaps PagedLogs SorobanChain
open SorobanPolling (Topic SorobanRpcEvent getEventTopicName)

/-! ### The router -/

abbrev Event : Type := ContractEvent Topic
def ANY_TOPIC : String := "*"
def MAX_ROUTER_CONTRACTS : Nat := 100

/-- A handler is known by its name. -/
structure Subscription where
  topic : String
  handler : String
deriving DecidableEq, Repr

/-- The subscriptions, the cursors, and the events that were handed out with their handlers. -/
structure Router where
  subscriptions : OrderedMap String (List Subscription)
  latestLedger : String → Option Nat
  handled : List (Event × List String)

def Router.start : Router := ⟨OrderedMap.empty,fun _ => none,[]⟩
def topicName (event : Event) : String :=
  getEventTopicName (⟨some event.contractId,some event.ledger,event.topic,()⟩ : SorobanRpcEvent Unit)

/-- Refused where the contract would be one too many. -/
def Router.subscribe (router : Router) (contractId handler topic : String) : Except String Router :=
  match router.subscriptions.get contractId with
  | some existing =>
    .ok { router with subscriptions := router.subscriptions.set contractId (existing ++ [⟨topic,handler⟩]) }
  | none =>
    if MAX_ROUTER_CONTRACTS ≤ router.subscriptions.entries.length then
      .error s!"Cannot register contract {contractId}: router already tracks {MAX_ROUTER_CONTRACTS} contracts"
    else .ok { router with subscriptions := router.subscriptions.set contractId [⟨topic,handler⟩] }

/-- The handlers of the contract for the topic of the event, or for every topic. -/
def handlersOf (subscriptions : OrderedMap String (List Subscription)) (event : Event) : List String :=
  (((subscriptions.get event.contractId).getD []).filter fun sub =>
    sub.topic == ANY_TOPIC || sub.topic == topicName event).map Subscription.handler

/-- Every matching handler is called; those that succeed are counted. -/
def Router.dispatchEvent (router : Router) (succeeds : String → Event → Bool) (event : Event) : Nat × Router :=
  match router.subscriptions.get event.contractId with
  | none => (0,router)
  | some subs =>
    if subs = [] then (0,router)
    else
      let handlers := handlersOf router.subscriptions event
      ((handlers.filter (succeeds · event)).length,{ router with handled := router.handled ++ [(event,handlers)] })

def EVENT_FILTERS_PER_REQUEST : Nat := 5
def CONTRACT_IDS_PER_FILTER : Nat := 5
def CONTRACTS_PER_EVENT_REQUEST : Nat := EVENT_FILTERS_PER_REQUEST * CONTRACT_IDS_PER_FILTER

/-- The slices of the loop over the contracts; each takes at least one. -/
def slices : Nat → List String → List (List String)
  | 0, _ => []
  | rounds + 1, ids =>
    if ids = [] then []
    else ids.take CONTRACTS_PER_EVENT_REQUEST :: slices rounds (ids.drop CONTRACTS_PER_EVENT_REQUEST)

/-- The events of all batches; a batch whose call fails is passed over. -/
def fetchEventsForContracts (getEvents : List String → Option (List Event)) (contractIds : List String) : List Event :=
  let unique := (contractIds.filter (· ≠ "")).eraseDups
  (slices unique.length unique).flatMap fun batch => (getEvents batch).getD []

/-- What a round meets: the newest ledger, how many events each answer lets through, and which handlers succeed. -/
structure Round where
  tip : Nat
  cut : List String → Option Nat
  succeeds : String → Event → Bool

section
variable (chain : Chain Topic) (startLedger : Nat)

def Router.cursor (router : Router) (contractId : String) : Nat := (router.latestLedger contractId).getD startLedger

/-- The oldest cursor of a registered contract. -/
def Router.fromLedger (router : Router) : Nat := ((router.subscriptions.keys.map (router.cursor startLedger)).min?).getD 0

def Router.fetched (router : Router) (round : Round) : List Event :=
  fetchEventsForContracts
    (fun batch => chain.getEvents batch (router.fromLedger startLedger) round.tip (round.cut batch)) router.subscriptions.keys

/-- One event of the loop of `pollOnce`; the cursors are those at the start of the round. -/
def handOut (contractIds : List String) (cursors : String → Nat) (succeeds : String → Event → Bool)
    (state : Nat × Router) (event : Event) : Nat × Router :=
  let (dispatched,router) := state
  if event.contractId ∉ contractIds then (dispatched,router)
  else if 0 < event.ledger ∧ event.ledger < cursors event.contractId then (dispatched,router)
  else
    let next := max ((router.latestLedger event.contractId).getD (cursors event.contractId)) (event.ledger + 1)
    let moved := if 0 < event.ledger then
      { router with latestLedger := Function.update router.latestLedger event.contractId (some next) } else router
    let (count,router) := moved.dispatchEvent succeeds event
    (dispatched + count,router)

def Router.pollOnce (router : Router) (round : Round) : Nat × Router :=
  let contractIds := router.subscriptions.keys
  if contractIds = [] then (0,router)
  else
    (router.fetched chain startLedger round).foldl
      (handOut contractIds (router.cursor startLedger) round.succeeds) (0,router)

inductive Input where
  | subscribe (contractId handler topic : String)
  | pollOnce (round : Round)

/-- The number of handlers that succeeded, where the step is a round. -/
def step (router : Router) : Input → Nat × Router
  | .subscribe contractId handler topic =>
    match router.subscribe contractId handler topic with
    | .error _ => (0,router)
    | .ok router => (0,router)
  | .pollOnce round => router.pollOnce chain startLedger round

end

/-! ### What is handed out -/

def Router.eventsOf (router : Router) (contractId : String) : List Event :=
  (router.handled.map Prod.fst).filter fun event => event.contractId = contractId
def upTo (chain : Chain Topic) (contractId : String) (low high : Nat) : List Event :=
  (chain.ofContracts [contractId]).entries.filter fun event => low ≤ event.ledger ∧ event.ledger < high

def Router.answer (chain : Chain Topic) (startLedger : Nat) (router : Router) (round : Round) (contractId : String) :
    List Event :=
  (router.fetched chain startLedger round).filter fun event => event.contractId = contractId

def Router.matching (chain : Chain Topic) (startLedger : Nat) (router : Router) (round : Round) (contractId : String) :
    List Event :=
  (chain.ofContracts [contractId]).range (router.fromLedger startLedger) round.tip

def notBefore (cursor : Nat) (events : List Event) : List Event := events.filter fun event => cursor ≤ event.ledger

/-- A round whose answers end within no ledger of a registered contract that its cursor has not passed. -/
def Sound (chain : Chain Topic) (startLedger : Nat) (router : Router) : Input → Prop
  | .subscribe _ _ _ => True
  | .pollOnce round => ∀ contractId ∈ router.subscriptions.keys,
      Whole ContractEvent.ledger
        (notBefore (router.cursor startLedger contractId) (router.answer chain startLedger round contractId))
        ((router.matching chain startLedger round contractId).drop (router.answer chain startLedger round contractId).length)

section
variable {chain : Chain Topic}

theorem mem_slices : ∀ {rounds : Nat} {ids batch : List String}, batch ∈ slices rounds ids → ∀ id ∈ batch, id ∈ ids := by
  intro rounds
  induction rounds with
  | zero =>
    intro ids batch listed
    cases listed
  | succ rounds ih =>
    intro ids batch listed id member
    rw [slices] at listed
    split at listed
    · cases listed
    · rcases List.mem_cons.mp listed with rfl | later
      · exact List.mem_of_mem_take member
      · exact List.mem_of_mem_drop (ih later id member)

variable {contractId : String}

theorem slices_answer {answer : List String → List Event} {matching : List Event}
    (own : ∀ batch, contractId ∈ batch → (answer batch).filter (fun event => event.contractId = contractId) <+: matching)
    (other : ∀ batch, contractId ∉ batch → (answer batch).filter (fun event => event.contractId = contractId) = []) :
    ∀ {rounds : Nat} {ids : List String}, ids.Nodup →
      ((slices rounds ids).flatMap answer).filter (fun event => event.contractId = contractId) <+: matching := by
  intro rounds
  induction rounds with
  | zero => exact fun _ => List.nil_prefix
  | succ rounds ih =>
    intro ids unique
    rw [slices]
    split
    · exact List.nil_prefix
    · rw [List.flatMap_cons,List.filter_append]
      have parts := unique
      rw [← List.take_append_drop CONTRACTS_PER_EVENT_REQUEST ids,List.nodup_append] at parts
      obtain ⟨_,later,apart⟩ := parts
      by_cases here : contractId ∈ ids.take CONTRACTS_PER_EVENT_REQUEST
      · have none_ : ((slices rounds (ids.drop CONTRACTS_PER_EVENT_REQUEST)).flatMap answer).filter
            (fun event => event.contractId = contractId) = [] := by
          rw [List.filter_flatMap,List.flatMap_eq_nil_iff]
          intro batch listed
          exact other batch fun member => apart contractId here contractId (mem_slices listed contractId member) rfl
        rw [none_,List.append_nil]
        exact own _ here
      · rw [other _ here,List.nil_append]
        exact ih later

theorem eraseDups_nodup {ids : List String} (unique : ids.Nodup) : ids.eraseDups = ids := by
  induction ids with
  | nil => rfl
  | cons id rest ih =>
    obtain ⟨absent,unique⟩ := List.nodup_cons.mp unique
    have kept : rest.filter (fun other => !other == id) = rest := by
      refine List.filter_eq_self.mpr fun other listed => ?_
      simp only [Bool.not_eq_eq_eq_not,Bool.not_true,beq_eq_false_iff_ne]
      exact fun same => absent (same ▸ listed)
    rw [List.eraseDups_cons,kept,ih unique]

theorem answer_prefix (chain : Chain Topic) (startLedger : Nat) (router : Router) (round : Round) (contractId : String) :
    router.answer chain startLedger round contractId <+: router.matching chain startLedger round contractId := by
  have unique : (router.subscriptions.keys.filter (· ≠ "")).Nodup := router.subscriptions.unique.filter _
  unfold Router.answer Router.fetched fetchEventsForContracts
  rw [eraseDups_nodup unique]
  refine slices_answer ?_ ?_ unique
  · intro batch listed
    cases cutIs : round.cut batch with
    | none =>
      simp only [Chain.getEvents,cutIs,Option.map_none,Option.getD_none,List.filter_nil]
      exact List.nil_prefix
    | some count =>
      have same : ((chain.ofContracts batch).range (router.fromLedger startLedger) round.tip).filter
          (fun event => event.contractId = contractId) = router.matching chain startLedger round contractId := by
        rw [Router.matching,← range_keep]
        congr 1
        simp only [Chain.ofContracts,Log.keep,List.filter_filter,Log.mk.injEq]
        refine List.filter_congr fun event _ => ?_
        by_cases own : event.contractId = contractId
        · simp [own,listed]
        · simp [own]
      simp only [Chain.getEvents,cutIs,Option.map_some,Option.getD_some]
      rw [← same]
      exact (List.take_prefix _ _).filter _
  · intro batch absent
    refine List.filter_eq_nil_iff.mpr fun event listed own => ?_
    cases cutIs : round.cut batch with
    | none => simp [Chain.getEvents,cutIs] at listed
    | some count =>
      simp only [Chain.getEvents,cutIs,Option.map_some,Option.getD_some] at listed
      have there := (mem_ofContracts.mp (mem_range.mp (List.mem_of_mem_take listed)).1).2
      exact absent (of_decide_eq_true own ▸ there)

/-! ### A round -/

def behind (event : Event) : Nat := event.ledger + 1

/-- Every registered contract has a subscription. -/
def Filled (subscriptions : OrderedMap String (List Subscription)) : Prop :=
  ∀ contractId ∈ subscriptions.keys, ∃ subs, subs ≠ [] ∧ subscriptions.get contractId = some subs

/-- The events that the loop of a round does not pass over. -/
def fresh (contractIds : List String) (cursors : String → Nat) (event : Event) : Bool :=
  event.contractId ∈ contractIds && !decide (0 < event.ledger ∧ event.ledger < cursors event.contractId)

section
variable {S : OrderedMap String (List Subscription)} (filled : Filled S) {cursors : String → Nat} {startLedger : Nat}
  {succeeds : String → Event → Bool}
include filled

theorem handOut_fresh (succeeds : String → Event → Bool) (n : Nat) {router : Router} (subscribed : router.subscriptions = S)
    (unset : ∀ contractId, router.latestLedger contractId = none → cursors contractId = startLedger) {event : Event}
    (positive : 0 < event.ledger) (isFresh : fresh S.keys cursors event = true) :
    ∃ m next, handOut S.keys cursors succeeds (n,router) event = (m,next) ∧ next.subscriptions = S ∧
      next.latestLedger = Function.update router.latestLedger event.contractId
        (some (max (router.cursor startLedger event.contractId) (behind event))) ∧
      next.handled = router.handled ++ [(event,handlersOf S event)] := by
  simp only [fresh,Bool.and_eq_true,decide_eq_true_eq,Bool.not_eq_eq_eq_not,Bool.not_true,decide_eq_false_iff_not] at isFresh
  obtain ⟨known,new⟩ := isFresh
  obtain ⟨subs,some_,found⟩ := filled _ known
  have fallback : (router.latestLedger event.contractId).getD (cursors event.contractId) =
      router.cursor startLedger event.contractId := by
    unfold Router.cursor
    cases latest : router.latestLedger event.contractId with
    | none => exact unset _ latest
    | some ledger => rfl
  have late : ¬ event.ledger < cursors event.contractId := fun early => new ⟨positive,early⟩
  unfold handOut
  simp only [known,not_true_eq_false,↓reduceIte,positive,late,and_false,fallback,Router.dispatchEvent,subscribed,found,
    if_neg some_]
  exact ⟨_,_,rfl,rfl,rfl,rfl⟩

theorem handOut_run : ∀ {events : List Event} {n : Nat} {router : Router}, (∀ event ∈ events, 0 < event.ledger) →
    router.subscriptions = S → (∀ contractId, router.latestLedger contractId = none → cursors contractId = startLedger) →
      (events.foldl (handOut S.keys cursors succeeds) (n,router)).2.subscriptions = S ∧
      (events.foldl (handOut S.keys cursors succeeds) (n,router)).2.handled =
        router.handled ++ (events.filter (fresh S.keys cursors)).map (fun event => (event,handlersOf S event)) ∧
      ∀ contractId, (events.foldl (handOut S.keys cursors succeeds) (n,router)).2.cursor startLedger contractId =
        newest behind (router.cursor startLedger contractId)
          ((events.filter (fresh S.keys cursors)).filter fun event => event.contractId = contractId) := by
  intro events
  induction events with
  | nil =>
    intro n router _ subscribed _
    exact ⟨subscribed,by simp,fun _ => rfl⟩
  | cons event rest ih =>
    intro n router positive subscribed unset
    have later : ∀ other ∈ rest, 0 < other.ledger := fun other listed => positive other (List.mem_cons_of_mem event listed)
    rw [List.foldl_cons]
    by_cases isFresh : fresh S.keys cursors event = true
    · obtain ⟨m,next,handsOut,same,ledgers,handed⟩ := handOut_fresh filled succeeds n subscribed unset
        (positive event (List.mem_cons_self ..)) isFresh
      rw [handsOut]
      have unset' : ∀ contractId, next.latestLedger contractId = none → cursors contractId = startLedger := by
        intro contractId none_
        rw [ledgers,Function.update_apply] at none_
        split at none_
        · cases none_
        · exact unset contractId none_
      obtain ⟨subs,handled,moved⟩ := ih (n := m) later same unset'
      refine ⟨subs,?_,?_⟩
      · rw [handled,handed,List.filter_cons_of_pos isFresh,List.map_cons,List.append_assoc,List.singleton_append]
      · intro contractId
        rw [moved contractId,List.filter_cons_of_pos isFresh]
        by_cases own : event.contractId = contractId
        · rw [List.filter_cons_of_pos (by simpa using own),newest_cons]
          congr 1
          simp [Router.cursor,ledgers,own]
        · rw [List.filter_cons_of_neg (by simpa using own)]
          congr 1
          simp [Router.cursor,ledgers,Ne.symm own]
    · have passed : handOut S.keys cursors succeeds (n,router) event = (n,router) := by
        unfold handOut
        by_cases known : event.contractId ∈ S.keys
        · have early : 0 < event.ledger ∧ event.ledger < cursors event.contractId := by
            by_contra late
            exact isFresh (by simp only [fresh,known,late,decide_true,decide_false,Bool.not_false,Bool.and_self])
          simp only [known,not_true_eq_false,↓reduceIte,early,and_self]
        · simp only [known,not_false_eq_true,↓reduceIte]
      rw [passed,List.filter_cons_of_neg isFresh]
      exact ih later subscribed unset

end

variable {router : Router}

theorem fetched_mem {startLedger : Nat} {round : Round} {event : Event}
    (listed : event ∈ router.fetched chain startLedger round) : event ∈ chain.log.entries := by
  unfold Router.fetched fetchEventsForContracts at listed
  obtain ⟨batch,_,answered⟩ := List.mem_flatMap.mp listed
  cases cutIs : round.cut batch with
  | none => simp [Chain.getEvents,cutIs] at answered
  | some count =>
    simp only [Chain.getEvents,cutIs,Option.map_some,Option.getD_some] at answered
    exact (mem_ofContracts.mp (mem_range.mp (List.mem_of_mem_take answered)).1).1

theorem pollOnce_spec (chain : Chain Topic) (startLedger : Nat) (filled : Filled router.subscriptions) (round : Round) :
    let new := (router.fetched chain startLedger round).filter (fresh router.subscriptions.keys (router.cursor startLedger))
    (router.pollOnce chain startLedger round).2.subscriptions = router.subscriptions ∧
      (router.pollOnce chain startLedger round).2.handled =
        router.handled ++ new.map (fun event => (event,handlersOf router.subscriptions event)) ∧
      ∀ contractId, (router.pollOnce chain startLedger round).2.cursor startLedger contractId =
        newest behind (router.cursor startLedger contractId) (new.filter fun event => event.contractId = contractId) := by
  intro new
  unfold Router.pollOnce
  by_cases none_ : router.subscriptions.keys = []
  · have nothing : new = [] := by
      refine List.filter_eq_nil_iff.mpr fun event _ => ?_
      simp [fresh,none_]
    rw [if_pos none_,nothing]
    exact ⟨rfl,by simp,fun _ => rfl⟩
  · rw [if_neg none_]
    refine handOut_run filled ?_ rfl ?_
    · exact fun event listed => chain.numbered event (fetched_mem listed)
    · intro contractId unset
      rw [Router.cursor,unset]
      rfl

/-! ### A contract in a round -/

def behindLog (chain : Chain Topic) (contractId : String) : Log behind :=
  ⟨(chain.ofContracts [contractId]).entries,(chain.ofContracts [contractId]).sorted.imp fun le => Nat.succ_le_succ le⟩

theorem upTo_range (contractId : String) (low high : Nat) :
    upTo chain contractId low high = (behindLog chain contractId).range (low + 1) high := by
  refine List.filter_congr fun event _ => ?_
  refine decide_eq_decide.mpr ?_
  unfold behind
  omega

theorem upTo_split {low middle high : Nat} (le : low ≤ middle) (le' : middle ≤ high) :
    upTo chain contractId low high = upTo chain contractId low middle ++ upTo chain contractId middle high := by
  rw [upTo_range,upTo_range,upTo_range]
  exact range_split _ (by omega) le'

theorem upTo_empty {low high : Nat} (none : high ≤ low) : upTo chain contractId low high = [] := by
  rw [upTo_range]
  exact range_empty (by omega)

theorem upTo_sublist (contractId : String) (low high : Nat) :
    (upTo chain contractId low high).Sublist (chain.ofContracts [contractId]).entries := List.filter_sublist

theorem fromLedger_le (startLedger : Nat) (known : contractId ∈ router.subscriptions.keys) :
    router.fromLedger startLedger ≤ router.cursor startLedger contractId := by
  have listed := List.mem_map_of_mem (f := router.cursor startLedger) known
  unfold Router.fromLedger
  cases least : (router.subscriptions.keys.map (router.cursor startLedger)).min? with
  | none =>
    rw [List.min?_eq_none_iff.mp least] at listed
    cases listed
  | some low => exact (List.min?_eq_some_iff.mp least).2 _ listed

def Router.news (chain : Chain Topic) (startLedger : Nat) (router : Router) (round : Round) (contractId : String) : List Event :=
  if contractId ∈ router.subscriptions.keys then
    notBefore (router.cursor startLedger contractId) (router.answer chain startLedger round contractId)
  else []

theorem news_eq (startLedger : Nat) (router : Router) (round : Round) (contractId : String) :
    ((router.fetched chain startLedger round).filter (fresh router.subscriptions.keys (router.cursor startLedger))).filter
      (fun event => event.contractId = contractId) = router.news chain startLedger round contractId := by
  unfold Router.news
  by_cases known : contractId ∈ router.subscriptions.keys
  · rw [if_pos known,notBefore,Router.answer,List.filter_filter,List.filter_filter]
    refine List.filter_congr fun event listed => ?_
    have positive := chain.numbered event (fetched_mem listed)
    by_cases own : event.contractId = contractId
    · by_cases passed : event.ledger < router.cursor startLedger contractId
      · simp [fresh,own,known,positive,passed,Nat.not_le.mpr passed]
      · simp [fresh,own,known,positive,passed,Nat.le_of_not_lt passed]
    · simp [own]
  · rw [if_neg known,List.filter_filter]
    refine List.filter_eq_nil_iff.mpr fun event _ => ?_
    by_cases own : event.contractId = contractId
    · simp [fresh,own,known]
    · simp [own]

theorem matching_split (chain : Chain Topic) (startLedger : Nat) (round : Round)
    (known : contractId ∈ router.subscriptions.keys) :
    (behindLog chain contractId).range (router.cursor startLedger contractId + 1) (round.tip + 1) =
      router.news chain startLedger round contractId ++
        notBefore (router.cursor startLedger contractId) ((router.matching chain startLedger round contractId).drop
          (router.answer chain startLedger round contractId).length) := by
  have start := fromLedger_le startLedger known
  obtain ⟨rest,split⟩ := answer_prefix chain startLedger router round contractId
  have parts : router.matching chain startLedger round contractId = router.answer chain startLedger round contractId ++
      (router.matching chain startLedger round contractId).drop (router.answer chain startLedger round contractId).length := by
    rw [← split,List.drop_left]
  have all : (behindLog chain contractId).range (router.cursor startLedger contractId + 1) (round.tip + 1) =
      notBefore (router.cursor startLedger contractId) (router.matching chain startLedger round contractId) := by
    rw [notBefore,Router.matching,Log.range,Log.range,List.filter_filter]
    refine List.filter_congr fun event _ => ?_
    rw [← Bool.decide_and,decide_eq_decide]
    unfold behind
    omega
  rw [all,Router.news,if_pos known]
  conv_lhs => rw [parts]
  exact List.filter_append ..

theorem news_sublist (startLedger : Nat) (router : Router) (round : Round) (contractId : String) :
    (router.news chain startLedger round contractId).Sublist (upTo chain contractId (router.cursor startLedger contractId)
      (newest behind (router.cursor startLedger contractId) (router.news chain startLedger round contractId))) := by
  by_cases known : contractId ∈ router.subscriptions.keys
  · have split := matching_split chain startLedger round known
    have early : (router.news chain startLedger round contractId).filter (fun event =>
        behind event ≤ newest behind (router.cursor startLedger contractId) (router.news chain startLedger round contractId)) =
          router.news chain startLedger round contractId :=
      List.filter_eq_self.mpr fun event listed => decide_eq_true (place_le_newest listed)
    have part : (router.news chain startLedger round contractId).Sublist
        ((behindLog chain contractId).range (router.cursor startLedger contractId + 1) (round.tip + 1)) := by
      rw [split]
      exact List.sublist_append_left ..
    have kept := part.filter fun event =>
      behind event ≤ newest behind (router.cursor startLedger contractId) (router.news chain startLedger round contractId)
    rw [early,Log.range,List.filter_filter] at kept
    refine kept.trans ?_
    rw [upTo_range]
    refine List.monotone_filter_right _ fun event passes => ?_
    simp only [Bool.and_eq_true,decide_eq_true_eq] at passes ⊢
    omega
  · rw [Router.news,if_neg known]
    exact List.nil_sublist _

theorem news_whole {startLedger : Nat} {round : Round} (sound : Sound chain startLedger router (.pollOnce round)) :
    router.news chain startLedger round contractId = upTo chain contractId (router.cursor startLedger contractId)
      (newest behind (router.cursor startLedger contractId) (router.news chain startLedger round contractId)) := by
  by_cases some_ : router.news chain startLedger round contractId = []
  · rw [some_]
    exact (upTo_empty (Nat.le_refl _)).symm
  · by_cases known : contractId ∈ router.subscriptions.keys
    · have split := matching_split chain startLedger round known
      have whole := sound contractId known
      rw [upTo_range]
      refine (whole_page split ?_ some_).symm
      intro a listed b behind_
      rw [Router.news,if_pos known] at listed
      exact Nat.succ_lt_succ (whole a listed b (List.mem_of_mem_filter behind_))
    · exact absurd (if_neg known) some_

theorem poll_contract {startLedger : Nat} (filled : Filled router.subscriptions) (round : Round) (contractId : String) :
    (router.pollOnce chain startLedger round).2.eventsOf contractId =
        router.eventsOf contractId ++ router.news chain startLedger round contractId ∧
      (router.pollOnce chain startLedger round).2.cursor startLedger contractId =
        newest behind (router.cursor startLedger contractId) (router.news chain startLedger round contractId) := by
  obtain ⟨_,handled,moved⟩ := pollOnce_spec chain startLedger filled round
  refine ⟨?_,?_⟩
  · rw [Router.eventsOf,handled,List.map_append,List.filter_append,List.map_map,← news_eq]
    congr 2
    exact List.map_id _
  · rw [moved contractId,news_eq]

theorem subscribe_spec {next : Router} {handler topic : String}
    (subscribes : router.subscribe contractId handler topic = .ok next) :
    next.latestLedger = router.latestLedger ∧ next.handled = router.handled ∧
      (Filled router.subscriptions → Filled next.subscriptions) := by
  have kept : ∀ {subs : List Subscription}, subs ≠ [] → Filled router.subscriptions →
      Filled (router.subscriptions.set contractId subs) := by
    intro subs some_ filled other known
    by_cases own : other = contractId
    · exact ⟨subs,some_,by rw [get_set,if_pos own]⟩
    · obtain ⟨old,found⟩ := mem_keys_iff.mp known
      rw [get_set,if_neg own] at found ⊢
      exact filled other (mem_keys_iff.mpr ⟨old,found⟩)
  unfold Router.subscribe at subscribes
  split at subscribes
  · cases subscribes
    exact ⟨rfl,rfl,kept (by simp)⟩
  · split at subscribes
    · cases subscribes
    · cases subscribes
      exact ⟨rfl,rfl,kept (by simp)⟩

/-- What a step does to a contract: nothing, or what a round does. -/
theorem step_cases (chain : Chain Topic) (startLedger : Nat) (filled : Filled router.subscriptions) (input : Input) :
    Filled (step chain startLedger router input).2.subscriptions ∧ ∀ contractId,
      ((step chain startLedger router input).2.eventsOf contractId = router.eventsOf contractId ∧
        (step chain startLedger router input).2.cursor startLedger contractId = router.cursor startLedger contractId) ∨
      ∃ round, input = .pollOnce round ∧
        (step chain startLedger router input).2.eventsOf contractId =
          router.eventsOf contractId ++ router.news chain startLedger round contractId ∧
        (step chain startLedger router input).2.cursor startLedger contractId =
          newest behind (router.cursor startLedger contractId) (router.news chain startLedger round contractId) := by
  cases input with
  | subscribe contractId handler topic =>
    cases subscribes : router.subscribe contractId handler topic with
    | error message =>
      simp only [step,subscribes]
      exact ⟨filled,fun _ => .inl ⟨trivial,trivial⟩⟩
    | ok next =>
      obtain ⟨ledgers,handled,fills⟩ := subscribe_spec subscribes
      simp only [step,subscribes,Router.eventsOf,Router.cursor,ledgers,handled]
      exact ⟨fills filled,fun _ => .inl ⟨trivial,trivial⟩⟩
  | pollOnce round =>
    have kept := (pollOnce_spec chain startLedger filled round).1
    refine ⟨?_,fun contractId => .inr ⟨round,rfl,poll_contract filled round contractId⟩⟩
    rw [step,kept]
    exact filled

/-! ### Runs -/

/-- What holds after every run: no event is handed out twice, and none before its turn. -/
structure Once (chain : Chain Topic) (startLedger : Nat) (router : Router) : Prop where
  filled : Filled router.subscriptions
  started : ∀ contractId, startLedger ≤ router.cursor startLedger contractId
  once : ∀ contractId, (router.eventsOf contractId).Sublist
    (upTo chain contractId startLedger (router.cursor startLedger contractId))

theorem once_start (startLedger : Nat) : Once chain startLedger Router.start :=
  ⟨fun _ known => (by cases known),fun _ => Nat.le_refl startLedger,fun _ => List.nil_sublist _⟩

theorem once_step {startLedger : Nat} (router : Router) (input : Input) (before : Once chain startLedger router) :
    Once chain startLedger (step chain startLedger router input).2 := by
  obtain ⟨filled,does⟩ := step_cases chain startLedger before.filled input
  refine ⟨filled,?_,?_⟩
  · intro contractId
    rcases does contractId with ⟨_,same⟩ | ⟨round,_,_,moved⟩
    · rw [same]
      exact before.started contractId
    · rw [moved]
      exact Nat.le_trans (before.started contractId) (le_newest ..)
  · intro contractId
    rcases does contractId with ⟨events,same⟩ | ⟨round,_,events,moved⟩
    · rw [events,same]
      exact before.once contractId
    · rw [events,moved,upTo_split (before.started contractId) (le_newest ..)]
      exact (before.once contractId).append (news_sublist startLedger router round contractId)

/-- Every event of a contract from the start up to its cursor was handed out, once and in order. -/
structure Exact (chain : Chain Topic) (startLedger : Nat) (router : Router) : Prop where
  once : Once chain startLedger router
  all : ∀ contractId, router.eventsOf contractId = upTo chain contractId startLedger (router.cursor startLedger contractId)

theorem exact_start (startLedger : Nat) : Exact chain startLedger Router.start :=
  ⟨once_start startLedger,fun _ => (upTo_empty (Nat.le_refl startLedger)).symm⟩

theorem exact_step {startLedger : Nat} (router : Router) (input : Input) (sound : Sound chain startLedger router input)
    (before : Exact chain startLedger router) : Exact chain startLedger (step chain startLedger router input).2 := by
  refine ⟨once_step router input before.once,?_⟩
  intro contractId
  obtain ⟨_,does⟩ := step_cases chain startLedger before.once.filled input
  rcases does contractId with ⟨events,same⟩ | ⟨round,rfl,events,moved⟩
  · rw [events,same]
    exact before.all contractId
  · rw [events,moved,upTo_split (before.once.started contractId) (le_newest ..),before.all contractId]
    congr 1
    exact news_whole sound

theorem answered_all {startLedger : Nat} {round : Round} (before : Exact chain startLedger router)
    (known : contractId ∈ router.subscriptions.keys)
    (full : router.answer chain startLedger round contractId = router.matching chain startLedger round contractId) :
    (upTo chain contractId startLedger (round.tip + 1)).Sublist
      ((router.pollOnce chain startLedger round).2.eventsOf contractId) := by
  have news : router.news chain startLedger round contractId =
      upTo chain contractId (router.cursor startLedger contractId) (round.tip + 1) := by
    rw [upTo_range,matching_split chain startLedger round known,full,List.drop_length]
    exact (List.append_nil _).symm
  rw [(poll_contract before.once.filled round contractId).1,before.all contractId,news]
  rcases Nat.le_total (router.cursor startLedger contractId) (round.tip + 1) with le | ge
  · rw [← upTo_split (before.once.started contractId) le]
  · rw [upTo_empty ge,List.append_nil]
    refine List.monotone_filter_right _ fun event passes => ?_
    simp only [decide_eq_true_eq] at passes ⊢
    omega

theorem poll_handlers {startLedger : Nat} (filled : Filled router.subscriptions) (round : Round) :
    ∃ new, (router.pollOnce chain startLedger round).2.handled = router.handled ++ new ∧
      ∀ entry ∈ new, entry.2 = handlersOf router.subscriptions entry.1 := by
  refine ⟨_,(pollOnce_spec chain startLedger filled round).2.1,?_⟩
  intro entry listed
  obtain ⟨event,_,rfl⟩ := List.mem_map.mp listed
  rfl

/-- In no run is an event handed out twice. In a run in which no answer ends within a ledger,
    every event of a contract from the start up to its cursor is handed out, to the handlers
    that the contract then has for it, and an answer in full takes the cursor to the tip. -/
theorem router_exact (chain : Chain Topic) (startLedger : Nat) :
    (∀ inputs contractId, ((run (step chain startLedger) Router.start inputs).eventsOf contractId).Sublist
      (chain.ofContracts [contractId]).entries) ∧
    ∀ inputs, (∀ t ∈ history (step chain startLedger) Router.start inputs, Sound chain startLedger t.before t.input) →
      (∀ contractId, (run (step chain startLedger) Router.start inputs).eventsOf contractId = upTo chain contractId
        startLedger ((run (step chain startLedger) Router.start inputs).cursor startLedger contractId)) ∧
      ∀ t ∈ history (step chain startLedger) Router.start inputs, ∀ round, t.input = .pollOnce round →
        (∃ new, t.after.handled = t.before.handled ++ new ∧
          ∀ entry ∈ new, entry.2 = handlersOf t.before.subscriptions entry.1) ∧
        ∀ contractId ∈ t.before.subscriptions.keys,
          t.before.answer chain startLedger round contractId = t.before.matching chain startLedger round contractId →
            (upTo chain contractId startLedger (round.tip + 1)).Sublist (t.after.eventsOf contractId) := by
  refine ⟨?_,?_⟩
  · intro inputs contractId
    have inv := run_inv (I := Once chain startLedger) once_step (once_start startLedger) inputs
    exact (inv.once contractId).trans (upTo_sublist ..)
  · intro inputs sound
    refine ⟨(run_inv_of_meets exact_step sound (exact_start startLedger)).all,?_⟩
    intro t member round polls
    have before := (history_inv exact_step sound (exact_start startLedger) t member).1
    obtain ⟨earlier,input,rfl⟩ := mem_history member
    obtain rfl : input = .pollOnce round := polls
    exact ⟨poll_handlers before.once.filled round,fun contractId known full => answered_all before known full⟩

end

/-- An event of the contract `C` in the ledger 5. -/
def event (txHash : String) : Event := ⟨"C",5,some txHash,[]⟩

def pair : Chain Topic := ⟨⟨[event "a",event "b"],by decide⟩,by decide,by decide⟩

/-- A round up to the ledger 5, with answers of some size. -/
def upTo5 (count : Nat) : Input := .pollOnce ⟨5,fun _ => some count,fun _ _ => true⟩

def everyTopic : Input := .subscribe "C" "h" ANY_TOPIC

theorem router_exact_pair :
    (run (step pair 3) Router.start [everyTopic,upTo5 10]).eventsOf "C" = [event "a",event "b"] := by
  have cursor : (run (step pair 3) Router.start [everyTopic,upTo5 10]).cursor 3 "C" = 6 := by decide +kernel
  have exact_ := ((router_exact pair 3).2 [everyTopic,upTo5 10] (by
    intro t listed
    rcases List.mem_cons.mp listed with rfl | later
    · trivial
    · obtain rfl := List.mem_singleton.mp later
      intro contractId known a _ b cutOff
      obtain rfl := List.mem_singleton.mp known
      cases cutOff)).1 "C"
  rw [exact_,cursor]
  rfl

/-- Where an answer ends between the two events of a ledger, the later rounds ask behind the
    ledger: however many there are, the second event is not handed out. -/
theorem second_skipped :
    event "b" ∈ upTo pair "C" 3 6 ∧ ∀ rounds,
      ((run (step pair 3) Router.start (everyTopic :: upTo5 1 :: List.replicate rounds (upTo5 10))).eventsOf "C").map
        ContractEvent.txHash = [some "a"] := by
  refine ⟨List.mem_cons_of_mem _ (List.mem_singleton_self _),?_⟩
  have still : ∀ rounds, run (step pair 3) (run (step pair 3) Router.start [everyTopic,upTo5 1])
      (List.replicate rounds (upTo5 10)) = run (step pair 3) Router.start [everyTopic,upTo5 1] := by
    intro rounds
    induction rounds with
    | zero => rfl
    | succ rounds ih => exact ih
  intro rounds
  have split : everyTopic :: upTo5 1 :: List.replicate rounds (upTo5 10) =
      [everyTopic,upTo5 1] ++ List.replicate rounds (upTo5 10) := rfl
  rw [split,run_append,still rounds]
  decide +kernel

end StellarAlerts.ContractRouter
