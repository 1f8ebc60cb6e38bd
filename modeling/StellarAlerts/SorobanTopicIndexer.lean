import StellarAlerts.Histories
import StellarAlerts.SorobanChain
import StellarAlerts.SorobanTopics
import StellarAlerts.UniqueTables

/-!
The index of the topics of contract events. Each page is asked for behind the newest
ledger of the one before, and a row is told from others by its contract, its ledger and
the hash of its topics. So the index is complete up to the cursor as long as no page
ends within a ledger and no two events of a ledger have the same topics
(`indexer_complete`).
-/
namespace StellarAlerts.SorobanTopicIndexer
open Histories PagedLogs SorobanChain SorobanTopics UniqueTables

/-! ### The worker -/

abbrev Event : Type := ContractEvent Entry

structure Settings where
  PAGE_SIZE : Nat
  BACKFILL_WINDOW : Nat
  fromXDR : String → Option ScVal

structure TopicIndexRow where
  contractId : String
  ledgerSeq : Nat
  txHash : Option String
  topicXdrJson : List String
  topics : List TopicValue
  topicSymbols : List String
  topicSymbol : Option String
  topicsHash : String

/-- The unique key of contract, ledger and hash. -/
def clash (a b : TopicIndexRow) : Bool :=
  a.contractId == b.contractId && a.ledgerSeq == b.ledgerSeq && a.topicsHash == b.topicsHash

def topicIndexRowFromEvent (settings : Settings) (contractId : String) (event : Event) : Option TopicIndexRow :=
  match event.topic with
  | [] => none
  | topic =>
    let decoded := decodeTopicArray settings.fromXDR topic
    some ⟨contractId,event.ledger,event.txHash,decoded.topicXdr,decoded.topics,decoded.topicSymbols,decoded.topicSymbol,
      decoded.topicsHash⟩

structure TopicIndexContractStats where
  contractId : String
  startLedger : Nat
  endLedger : Nat
  indexed : Nat
  skipped : Nat
  cursor : Nat
  errors : Nat
deriving DecidableEq, Repr

/-- The table of the rows and the table of the cursors. -/
structure World where
  sorobanTopicIndex : Table TopicIndexRow clash
  sorobanTopicIndexCursor : String → Option Nat

def World.start : World := ⟨Table.empty,fun _ => none⟩

def resolveStartLedger (settings : Settings) (w : World) (contractId : String) (latestLedger : Nat) : Nat :=
  match w.sorobanTopicIndexCursor contractId with
  | some ledgerSeq => ledgerSeq + 1
  | none => max 1 (latestLedger + 1 - settings.BACKFILL_WINDOW)

/-- A batch that is yielded, and the ledger from which it was asked for. -/
structure Batch where
  fromLedger : Nat
  events : List Event

/-- The batches of a range, and whether a call has failed behind them. -/
structure Fetched where
  batches : List Batch
  failed : Bool

def Fetched.events (fetched : Fetched) : List Event := fetched.batches.flatMap Batch.events

/-- The loop of `fetchTopicEventsInRange`; none where the fuel does not last. -/
def fetchTopicEventsInRange (getEvents : Nat → Option (List Event)) (endLedger : Nat) : Nat → Nat → Option Fetched
  | fuel, fromLedger =>
    if endLedger < fromLedger then some ⟨[],false⟩
    else
      match fuel with
      | 0 => none
      | fuel + 1 =>
        match getEvents fromLedger with
        | none => some ⟨[],true⟩
        | some events =>
          let normalized := events.filter fun event => event.ledger ≠ 0 ∧ event.ledger ≤ endLedger
          let newestLedger := newest ContractEvent.ledger (fromLedger - 1) normalized
          if normalized.isEmpty then some ⟨[],false⟩
          else if endLedger ≤ newestLedger then some ⟨[⟨fromLedger,normalized⟩],false⟩
          else
            (fetchTopicEventsInRange getEvents endLedger fuel (newestLedger + 1)).map fun later =>
              ⟨⟨fromLedger,normalized⟩ :: later.batches,later.failed⟩

/-- A run: the latest ledger, none where it or the cursor cannot be read; how many events
    the answer to each call lets through; and which writes succeed. -/
structure Run where
  contractId : String
  latestLedger : Option Nat
  cut : Nat → Option Nat
  stored : Nat → Bool
  saved : Bool

/-- The rows so far and what is counted of them. -/
structure Progress where
  rows : Table TopicIndexRow clash
  stats : TopicIndexContractStats

/-- The batches in their order, and whether a write has failed on the way. -/
def storeBatches (settings : Settings) (run : Run) : List Batch → Progress → Bool × Progress
  | [], progress => (false,progress)
  | batch :: rest, progress =>
    let rows := batch.events.filterMap (topicIndexRowFromEvent settings run.contractId)
    let skipped := batch.events.length - rows.length + (rows.filter fun row => row.ledgerSeq = 0).length
    let stats := { progress.stats with
      skipped := progress.stats.skipped + skipped
      cursor := newest TopicIndexRow.ledgerSeq progress.stats.cursor rows }
    if rows.isEmpty then storeBatches settings run rest ⟨progress.rows,stats⟩
    else if !run.stored batch.fromLedger then (true,⟨progress.rows,stats⟩)
    else
      let result := progress.rows.createMany rows
      storeBatches settings run rest ⟨result.2,{ stats with indexed := stats.indexed + result.1 }⟩

section
variable (settings : Settings) (chain : Chain Entry)

/-- The answers that a run meets. -/
def Run.getEvents (run : Run) (endLedger fromLedger : Nat) : Option (List Event) :=
  chain.getEvents [run.contractId] fromLedger endLedger ((run.cut fromLedger).map fun count => min count settings.PAGE_SIZE)

def Run.fetch (run : Run) (startLedger latest : Nat) : Option Fetched :=
  fetchTopicEventsInRange (run.getEvents settings chain latest) latest (latest + 1 - startLedger) startLedger

/-- The run and its statistics, none where it is rejected. -/
def indexSorobanTopicsForContract (w : World) (run : Run) : Option TopicIndexContractStats × World :=
  match run.latestLedger with
  | none => (none,w)
  | some latest =>
    if latest = 0 then (some ⟨run.contractId,0,latest,0,0,0,0⟩,w)
    else
      let startLedger := resolveStartLedger settings w run.contractId latest
      match run.fetch settings chain startLedger latest with
      | none => (none,w)
      | some fetched =>
        let (broken,progress) := storeBatches settings run fetched.batches
          ⟨w.sorobanTopicIndex,⟨run.contractId,startLedger,latest,0,0,startLedger - 1,0⟩⟩
        if broken || fetched.failed || !run.saved then
          (some { progress.stats with errors := progress.stats.errors + 1 },⟨progress.rows,w.sorobanTopicIndexCursor⟩)
        else
          (some progress.stats,
            ⟨progress.rows,Function.update w.sorobanTopicIndexCursor run.contractId (some progress.stats.cursor)⟩)

end

/-! ### What is complete -/

structure OwnRows (settings : Settings) (rows : List TopicIndexRow) (events : List Event) : Prop where
  there : ∀ event ∈ events, ∃ row ∈ rows, topicIndexRowFromEvent settings event.contractId event = some row
  apart : (events.map fun event => topicIndexRowFromEvent settings event.contractId event).Nodup

/-- The events of every contract from its first start up to its cursor have their rows. -/
def Complete (settings : Settings) (chain : Chain Entry) (first : String → Nat) (w : World) : Prop :=
  ∀ contractId cursor, w.sorobanTopicIndexCursor contractId = some cursor →
    OwnRows settings w.sorobanTopicIndex.rows ((chain.ofContracts [contractId]).range (first contractId) cursor)

def rowKey (settings : Settings) (event : Event) : Option (Nat × String) :=
  (topicIndexRowFromEvent settings event.contractId event).map fun row => (row.ledgerSeq,row.topicsHash)

/-- A run that loses no event: as long as there is no cursor it starts where the first one did, no page ends within a ledger, every
    event has topics, and no two events of a ledger have the same hash. -/
structure Sound (settings : Settings) (chain : Chain Entry) (first : String → Nat) (w : World) (run : Run) : Prop where
  starts : ∀ latest, run.latestLedger = some latest → latest ≠ 0 → w.sorobanTopicIndexCursor run.contractId = none →
    resolveStartLedger settings w run.contractId latest = first run.contractId
  pages : ∀ latest, run.latestLedger = some latest → latest ≠ 0 → ∀ fetched,
    run.fetch settings chain (resolveStartLedger settings w run.contractId latest) latest = some fetched →
      (∀ batch ∈ fetched.batches, Whole ContractEvent.ledger batch.events
        (((chain.ofContracts [run.contractId]).range batch.fromLedger latest).drop batch.events.length)) ∧
      (∀ event ∈ fetched.events, event.topic ≠ []) ∧ (fetched.events.map (rowKey settings)).Nodup

/-! ### Fetching -/

section
variable {settings : Settings} {chain : Chain Entry} {run : Run}

variable {endLedger : Nat}

theorem getEvents_split {fromLedger : Nat} {events : List Event}
    (answered : run.getEvents settings chain endLedger fromLedger = some events) :
    (chain.ofContracts [run.contractId]).range fromLedger endLedger =
      events ++ ((chain.ofContracts [run.contractId]).range fromLedger endLedger).drop events.length := by
  unfold Run.getEvents Chain.getEvents at answered
  rw [Option.map_map] at answered
  obtain ⟨count,_,rfl⟩ := Option.map_eq_some_iff.mp answered
  exact (List.prefix_iff_eq_append.mp (List.take_prefix _ _)).symm

theorem normalized_eq {fromLedger : Nat} {events : List Event}
    (answered : run.getEvents settings chain endLedger fromLedger = some events) :
    (events.filter fun event => event.ledger ≠ 0 ∧ event.ledger ≤ endLedger) = events := by
  refine List.filter_eq_self.mpr fun event listed => ?_
  obtain ⟨there,_,below⟩ := page_range (getEvents_split answered) listed
  have positive := chain.numbered event (mem_ofContracts.mp there).1
  exact decide_eq_true ⟨by omega,below⟩

theorem fetch_ends (endLedger : Nat) : ∀ fuel fromLedger, endLedger + 1 - fromLedger ≤ fuel →
    (fetchTopicEventsInRange (run.getEvents settings chain endLedger) endLedger fuel fromLedger).isSome = true := by
  intro fuel
  induction fuel with
  | zero =>
    intro fromLedger enough
    rw [fetchTopicEventsInRange,if_pos (by omega)]
    rfl
  | succ fuel ih =>
    intro fromLedger enough
    rw [fetchTopicEventsInRange]
    by_cases past : endLedger < fromLedger
    · rw [if_pos past]
      rfl
    · rw [if_neg past]
      cases answered : run.getEvents settings chain endLedger fromLedger with
      | none => rfl
      | some events =>
        simp only [normalized_eq answered]
        by_cases none_ : events.isEmpty = true
        · rw [if_pos none_]
          rfl
        · rw [if_neg none_]
          by_cases last : endLedger ≤ newest ContractEvent.ledger (fromLedger - 1) events
          · rw [if_pos last]
            rfl
          · have some_ : events ≠ [] := fun empty => none_ (by simp [empty])
            have moved := newest_moves (getEvents_split answered) some_
            rw [if_neg last,Option.isSome_map]
            exact ih _ (by omega)

/-- What holds of nothing, of a last page and of a page before a later fetch holds of what is fetched. -/
@[elab_as_elim]
theorem fetch_rule {motive : Nat → Fetched → Prop} (nothing : ∀ {fromLedger} failed, motive fromLedger ⟨[],failed⟩)
    (last : ∀ {fromLedger events}, run.getEvents settings chain endLedger fromLedger = some events → events ≠ [] →
      motive fromLedger ⟨[⟨fromLedger,events⟩],false⟩)
    (more : ∀ {fromLedger events later}, run.getEvents settings chain endLedger fromLedger = some events → events ≠ [] →
      motive (newest ContractEvent.ledger (fromLedger - 1) events + 1) later →
        motive fromLedger ⟨⟨fromLedger,events⟩ :: later.batches,later.failed⟩) :
    ∀ {fuel fromLedger : Nat} {fetched : Fetched},
      fetchTopicEventsInRange (run.getEvents settings chain endLedger) endLedger fuel fromLedger = some fetched →
        motive fromLedger fetched := by
  intro fuel
  induction fuel with
  | zero =>
    intro fromLedger fetched fetches
    rw [fetchTopicEventsInRange] at fetches
    split at fetches
    · obtain rfl := Option.some.inj fetches
      exact nothing false
    · cases fetches
  | succ fuel ih =>
    intro fromLedger fetched fetches
    rw [fetchTopicEventsInRange] at fetches
    by_cases past : endLedger < fromLedger
    · rw [if_pos past] at fetches
      obtain rfl := Option.some.inj fetches
      exact nothing false
    · rw [if_neg past] at fetches
      cases answered : run.getEvents settings chain endLedger fromLedger with
      | none =>
        rw [answered] at fetches
        obtain rfl := Option.some.inj fetches
        exact nothing true
      | some events =>
        simp only [answered,normalized_eq answered] at fetches
        by_cases none_ : events.isEmpty = true
        · rw [if_pos none_] at fetches
          obtain rfl := Option.some.inj fetches
          exact nothing false
        · rw [if_neg none_] at fetches
          have some_ : events ≠ [] := fun empty => none_ (by simp [empty])
          by_cases ends : endLedger ≤ newest ContractEvent.ledger (fromLedger - 1) events
          · rw [if_pos ends] at fetches
            obtain rfl := Option.some.inj fetches
            exact last answered some_
          · rw [if_neg ends] at fetches
            obtain ⟨later,fetchesLater,rfl⟩ := Option.map_eq_some_iff.mp fetches
            exact more answered some_ (ih fetchesLater)

theorem fetch_range : ∀ {fuel fromLedger : Nat} {fetched : Fetched},
    fetchTopicEventsInRange (run.getEvents settings chain endLedger) endLedger fuel fromLedger = some fetched → 0 < fromLedger →
      (∀ batch ∈ fetched.batches, Whole ContractEvent.ledger batch.events
        (((chain.ofContracts [run.contractId]).range batch.fromLedger endLedger).drop batch.events.length)) →
      (chain.ofContracts [run.contractId]).range fromLedger (newest ContractEvent.ledger (fromLedger - 1) fetched.events) =
        fetched.events := by
  intro fuel fromLedger fetched fetches
  refine fetch_rule ?_ ?_ ?_ fetches
  · intro fromLedger failed positive _
    exact range_empty (by simp only [Fetched.events,List.flatMap_nil,newest,List.foldl_nil]; omega)
  · intro fromLedger events answered some_ _ whole
    have all : Fetched.events ⟨[⟨fromLedger,events⟩],false⟩ = events := by simp [Fetched.events]
    rw [all]
    exact whole_page (getEvents_split answered) (whole ⟨fromLedger,events⟩ (List.mem_singleton_self _)) some_
  · intro fromLedger events later answered some_ ih _ whole
    have split := getEvents_split answered
    have moved := newest_moves split some_
    have first := whole_page split (whole ⟨fromLedger,events⟩ (List.mem_cons_self ..)) some_
    have rest := ih (by omega) fun batch listed => whole batch (List.mem_cons_of_mem _ listed)
    rw [Nat.add_sub_cancel] at rest
    have startsBefore : fromLedger ≤ newest ContractEvent.ledger (fromLedger - 1) events + 1 := by omega
    have all : Fetched.events ⟨⟨fromLedger,events⟩ :: later.batches,later.failed⟩ = events ++ later.events := by
      simp [Fetched.events]
    rw [all,newest_append,range_split _ startsBefore (le_newest ..),
      first,rest]

end

/-! ### Storing -/

theorem row_fields {settings : Settings} {contractId : String} {event : Event} {row : TopicIndexRow}
    (made : topicIndexRowFromEvent settings contractId event = some row) :
    row.contractId = contractId ∧ row.ledgerSeq = event.ledger := by
  unfold topicIndexRowFromEvent at made
  split at made
  · cases made
  · rw [← Option.some.inj made]
    exact ⟨rfl,rfl⟩

theorem row_made (settings : Settings) (contractId : String) {event : Event} (topics : event.topic ≠ []) :
    ∃ row, topicIndexRowFromEvent settings contractId event = some row := by
  unfold topicIndexRowFromEvent
  split
  next none_ => exact absurd none_ topics
  next => exact ⟨_,rfl⟩

theorem newest_rows (settings : Settings) (contractId : String) {events : List Event} (start : Nat)
    (topics : ∀ event ∈ events, event.topic ≠ []) :
    newest TopicIndexRow.ledgerSeq start (events.filterMap (topicIndexRowFromEvent settings contractId)) =
      newest ContractEvent.ledger start events := by
  induction events generalizing start with
  | nil => rfl
  | cons event rest ih =>
    obtain ⟨row,made⟩ := row_made settings contractId (topics event (List.mem_cons_self ..))
    rw [List.filterMap_cons,made,newest_cons,newest_cons,(row_fields made).2]
    exact ih _ fun later listed => topics later (List.mem_cons_of_mem event listed)

theorem clash_refl (a : TopicIndexRow) : clash a a = true := by simp [clash]

section
variable {settings : Settings} {run : Run}

variable {batches : List Batch}

theorem storeBatches_mono {progress : Progress} {row : TopicIndexRow} (there : row ∈ progress.rows.rows) :
    row ∈ (storeBatches settings run batches progress).2.rows.rows := by
  induction batches generalizing progress with
  | nil => exact there
  | cons batch rest ih =>
    rw [storeBatches]
    dsimp only
    split
    · exact ih there
    · split
      · exact there
      · exact ih (createMany_mono there)

theorem storeBatches_sub {progress : Progress} {row : TopicIndexRow}
    (there : row ∈ (storeBatches settings run batches progress).2.rows.rows) :
    row ∈ progress.rows.rows ∨ ∃ batch ∈ batches, ∃ event ∈ batch.events,
      topicIndexRowFromEvent settings run.contractId event = some row := by
  induction batches generalizing progress with
  | nil => exact .inl there
  | cons batch rest ih =>
    have later : ∀ {p : Progress}, row ∈ (storeBatches settings run rest p).2.rows.rows →
        row ∈ p.rows.rows ∨ ∃ other ∈ batch :: rest, ∃ event ∈ other.events,
          topicIndexRowFromEvent settings run.contractId event = some row := by
      intro p stored
      rcases ih stored with old | ⟨other,listed,made⟩
      · exact .inl old
      · exact .inr ⟨other,List.mem_cons_of_mem batch listed,made⟩
    rw [storeBatches] at there
    dsimp only at there
    split at there
    · rcases later there with old | made
      · exact .inl old
      · exact .inr made
    · split at there
      · exact .inl there
      · rcases later there with old | made
        · rcases createMany_sub old with before | new
          · exact .inl before
          · obtain ⟨event,listed,made⟩ := List.mem_filterMap.mp new
            exact .inr ⟨batch,List.mem_cons_self ..,event,listed,made⟩
        · exact .inr made

theorem storeBatches_done (settings : Settings) (run : Run) (progress : Progress)
    (done : (storeBatches settings run batches progress).1 = false)
    (topics : ∀ event ∈ batches.flatMap Batch.events, event.topic ≠ []) :
    (storeBatches settings run batches progress).2.stats.cursor =
        newest ContractEvent.ledger progress.stats.cursor (batches.flatMap Batch.events) ∧
      ∀ event ∈ batches.flatMap Batch.events, ∀ row, topicIndexRowFromEvent settings run.contractId event = some row →
        (storeBatches settings run batches progress).2.rows.holds row = true := by
  induction batches generalizing progress with
  | nil => exact ⟨rfl,fun event listed => by cases listed⟩
  | cons batch rest ih =>
    have topicsHere : ∀ event ∈ batch.events, event.topic ≠ [] :=
      fun event listed => topics event (by simp [listed])
    have topicsLater : ∀ event ∈ rest.flatMap Batch.events, event.topic ≠ [] := by
      intro event listed
      exact topics event (by rw [List.flatMap_cons]; exact List.mem_append_right _ listed)
    have cursor := newest_rows settings run.contractId progress.stats.cursor topicsHere
    rw [List.flatMap_cons,newest_append,← cursor]
    rw [storeBatches] at done ⊢
    dsimp only at done ⊢
    split at done
    next empty =>
      rw [if_pos empty]
      obtain ⟨cursorIs,held⟩ := ih _ done topicsLater
      refine ⟨cursorIs,?_⟩
      intro event listed row made
      rcases List.mem_append.mp listed with here | later
      · have new := List.mem_filterMap.mpr ⟨event,here,made⟩
        rw [List.isEmpty_iff.mp empty] at new
        cases new
      · exact held event later row made
    next some_ =>
      split at done
      · cases done
      next stored =>
        rw [if_neg some_,if_neg stored]
        obtain ⟨cursorIs,held⟩ := ih _ done topicsLater
        refine ⟨cursorIs,?_⟩
        intro event listed row made
        rcases List.mem_append.mp listed with here | later
        · have new := List.mem_filterMap.mpr ⟨event,here,made⟩
          obtain ⟨a,there,clashes⟩ := holds_iff.mp (createMany_holds (t := progress.rows) clash_refl new)
          exact holds_iff.mpr ⟨a,storeBatches_mono there,clashes⟩
        · exact held event later row made

end

/-! ### Runs -/

section
variable {settings : Settings} {chain : Chain Entry}

/-- Every row is that of an event of the chain. -/
def FromChain (settings : Settings) (chain : Chain Entry) (w : World) : Prop :=
  ∀ row ∈ w.sorobanTopicIndex.rows, ∃ event ∈ chain.log.entries,
    topicIndexRowFromEvent settings event.contractId event = some row

theorem index_cases (settings : Settings) (chain : Chain Entry) (w : World) (run : Run) :
    (indexSorobanTopicsForContract settings chain w run).2 = w ∨
      ∃ latest fetched, run.latestLedger = some latest ∧ latest ≠ 0 ∧
        run.fetch settings chain (resolveStartLedger settings w run.contractId latest) latest = some fetched ∧
        ∃ progress, progress.rows = w.sorobanTopicIndex ∧
          progress.stats.cursor = resolveStartLedger settings w run.contractId latest - 1 ∧
          (indexSorobanTopicsForContract settings chain w run).2.sorobanTopicIndex =
            (storeBatches settings run fetched.batches progress).2.rows ∧
          ((indexSorobanTopicsForContract settings chain w run).2.sorobanTopicIndexCursor = w.sorobanTopicIndexCursor ∨
            (storeBatches settings run fetched.batches progress).1 = false ∧
              (indexSorobanTopicsForContract settings chain w run).2.sorobanTopicIndexCursor =
                Function.update w.sorobanTopicIndexCursor run.contractId
                  (some (storeBatches settings run fetched.batches progress).2.stats.cursor)) := by
  unfold indexSorobanTopicsForContract
  cases latestIs : run.latestLedger with
  | none => exact .inl rfl
  | some latest =>
    by_cases zero : latest = 0
    · exact .inl (by simp [zero])
    · cases fetches : run.fetch settings chain (resolveStartLedger settings w run.contractId latest) latest with
      | none => exact .inl (by simp [zero,fetches])
      | some fetched =>
        refine .inr ⟨latest,fetched,rfl,zero,fetches,
          ⟨w.sorobanTopicIndex,⟨run.contractId,resolveStartLedger settings w run.contractId latest,latest,0,0,
            resolveStartLedger settings w run.contractId latest - 1,0⟩⟩,rfl,rfl,?_,?_⟩
        · simp only [if_neg zero,fetches]
          split <;> rfl
        · simp only [if_neg zero,fetches]
          split
          next => exact .inl rfl
          next done =>
            simp only [Bool.or_eq_true,not_or,Bool.not_eq_true] at done
            exact .inr ⟨done.1.1,rfl⟩

theorem fetched_matching {run : Run} {endLedger : Nat} : ∀ {fuel fromLedger : Nat} {fetched : Fetched},
    fetchTopicEventsInRange (run.getEvents settings chain endLedger) endLedger fuel fromLedger = some fetched →
      ∀ batch ∈ fetched.batches, ∀ event ∈ batch.events,
        event ∈ (chain.ofContracts [run.contractId]).entries ∧ fromLedger ≤ event.ledger := by
  intro fuel fromLedger fetched fetches
  refine fetch_rule ?_ ?_ ?_ fetches
  · intro fromLedger failed batch listed
    cases listed
  · intro fromLedger events answered _ batch listed event member
    obtain rfl := List.mem_singleton.mp listed
    obtain ⟨there,above,-⟩ := page_range (getEvents_split answered) member
    exact ⟨there,above⟩
  · intro fromLedger events later answered _ ih batch listed event member
    rcases List.mem_cons.mp listed with rfl | behind
    · obtain ⟨there,above,-⟩ := page_range (getEvents_split answered) member
      exact ⟨there,above⟩
    · obtain ⟨there,above⟩ := ih batch behind event member
      have moved := le_newest ContractEvent.ledger (fromLedger - 1) events
      exact ⟨there,by omega⟩

theorem fromChain_step {w : World} (sound : FromChain settings chain w) (run : Run) :
    FromChain settings chain (indexSorobanTopicsForContract settings chain w run).2 := by
  rcases index_cases settings chain w run with same | ⟨latest,fetched,_,_,fetches,progress,rows,_,stores,_⟩
  · rw [same]
    exact sound
  · intro row there
    rw [stores] at there
    rcases storeBatches_sub there with old | ⟨batch,listed,event,member,made⟩
    · exact sound row (rows ▸ old)
    · obtain ⟨inChain,own⟩ := mem_ofContracts.mp (fetched_matching fetches batch listed event member).1
      rw [← List.mem_singleton.mp own] at made
      exact ⟨event,inChain,made⟩

theorem ownRows_mono {rows rows' : List TopicIndexRow} (more : ∀ row ∈ rows, row ∈ rows') {events : List Event}
    (own : OwnRows settings rows events) : OwnRows settings rows' events := by
  refine ⟨fun event listed => ?_,own.apart⟩
  obtain ⟨row,there,made⟩ := own.there event listed
  exact ⟨row,more row there,made⟩

theorem rows_mono (settings : Settings) (chain : Chain Entry) (w : World) (run : Run) : ∀ row ∈ w.sorobanTopicIndex.rows,
    row ∈ (indexSorobanTopicsForContract settings chain w run).2.sorobanTopicIndex.rows := by
  intro row there
  rcases index_cases settings chain w run with same | ⟨_,_,_,_,_,progress,rows,_,stores,_⟩
  · rw [same]
    exact there
  · rw [stores]
    exact storeBatches_mono (rows.symm ▸ there)

theorem ownRows_append {rows : List TopicIndexRow} {events later : List Event} (own : OwnRows settings rows events)
    (fetched : OwnRows settings rows later) (behind : ∀ a ∈ events, ∀ b ∈ later, a.ledger < b.ledger) :
    OwnRows settings rows (events ++ later) := by
  refine ⟨?_,?_⟩
  · intro event listed
    rcases List.mem_append.mp listed with old | new
    · exact own.there event old
    · exact fetched.there event new
  · rw [List.map_append,List.nodup_append]
    refine ⟨own.apart,fetched.apart,?_⟩
    intro x inFirst y inSecond same
    obtain ⟨a,listed,rfl⟩ := List.mem_map.mp inFirst
    obtain ⟨b,listed',rfl⟩ := List.mem_map.mp inSecond
    obtain ⟨row,_,made⟩ := own.there a listed
    have less := behind a listed b listed'
    have ledger := (row_fields made).2
    rw [same] at made
    have ledger' := (row_fields made).2
    omega

theorem fetched_ownRows {w : World} (sound : FromChain settings chain w) {contractId : String} {startLedger reached : Nat}
    {events : List Event} (all : (chain.ofContracts [contractId]).range startLedger reached = events)
    (topics : ∀ event ∈ events, event.topic ≠ []) (apart : (events.map (rowKey settings)).Nodup)
    (held : ∀ event ∈ events, ∀ row, topicIndexRowFromEvent settings contractId event = some row →
      w.sorobanTopicIndex.holds row = true) :
    OwnRows settings w.sorobanTopicIndex.rows events := by
  have own : ∀ event ∈ events, event.contractId = contractId := by
    intro event listed
    rw [← all] at listed
    exact List.mem_singleton.mp (mem_ofContracts.mp (mem_range.mp listed).1).2
  refine ⟨?_,?_⟩
  · intro event listed
    obtain ⟨row,made⟩ := row_made settings event.contractId (topics event listed)
    obtain ⟨a,there,clashes⟩ := holds_iff.mp (held event listed row (own event listed ▸ made))
    -- The row that is held is that of an event of the same ledger, which was fetched too.
    obtain ⟨other,inChain,madeOther⟩ := sound a there
    simp only [clash,Bool.and_eq_true,beq_iff_eq] at clashes
    obtain ⟨⟨contracts,ledgers⟩,hashes⟩ := clashes
    obtain ⟨ownA,ledgerA⟩ := row_fields madeOther
    obtain ⟨ownRow,ledgerRow⟩ := row_fields made
    have sameLedger : other.ledger = event.ledger := by rw [← ledgerA,← ledgerRow,ledgers]
    have sameContract : other.contractId = contractId := by rw [← ownA,contracts,ownRow,own event listed]
    have fetched : other ∈ events := by
      have bounds := (mem_range.mp (all ▸ listed)).2
      rw [← all]
      refine mem_range.mpr ⟨mem_ofContracts.mpr ⟨inChain,List.mem_singleton.mpr sameContract⟩,?_⟩
      rw [sameLedger]
      exact bounds
    have keys : rowKey settings other = rowKey settings event := by
      rw [rowKey,rowKey,madeOther,made,Option.map_some,Option.map_some,ledgers,hashes]
    have same := List.inj_on_of_nodup_map apart fetched listed keys
    rw [same] at madeOther
    exact ⟨a,there,madeOther⟩
  · rw [List.Nodup,List.pairwise_map] at apart ⊢
    refine apart.imp fun {a b} keys rows => keys ?_
    rw [rowKey,rowKey,rows]

end

/-! ### The index is complete -/

/-- What every run keeps: a contract with a cursor has its rows from the first start on. -/
structure Inv (settings : Settings) (chain : Chain Entry) (first : String → Nat) (w : World) : Prop where
  fromChain : FromChain settings chain w
  complete : Complete settings chain first w
  started : ∀ contractId cursor, w.sorobanTopicIndexCursor contractId = some cursor → first contractId ≤ cursor + 1

section
variable {settings : Settings} {chain : Chain Entry} {first : String → Nat}

theorem resolve_positive (settings : Settings) (w : World) (contractId : String) (latest : Nat) :
    0 < resolveStartLedger settings w contractId latest := by
  unfold resolveStartLedger
  split
  · omega
  · omega

theorem complete_before {w : World} {run : Run} {latest : Nat} (inv : Inv settings chain first w)
    (starts : w.sorobanTopicIndexCursor run.contractId = none →
      resolveStartLedger settings w run.contractId latest = first run.contractId) :
    first run.contractId ≤ resolveStartLedger settings w run.contractId latest ∧
      OwnRows settings w.sorobanTopicIndex.rows ((chain.ofContracts [run.contractId]).range (first run.contractId)
        (resolveStartLedger settings w run.contractId latest - 1)) := by
  cases cursorIs : w.sorobanTopicIndexCursor run.contractId with
  | some cursor =>
    have start : resolveStartLedger settings w run.contractId latest = cursor + 1 := by rw [resolveStartLedger,cursorIs]
    rw [start,Nat.add_sub_cancel]
    exact ⟨inv.started _ _ cursorIs,inv.complete _ _ cursorIs⟩
  | none =>
    have same := starts cursorIs
    have positive := resolve_positive settings w run.contractId latest
    rw [range_empty (by omega)]
    exact ⟨by omega,⟨fun event listed => (by cases listed),List.nodup_nil⟩⟩

theorem inv_step {w : World} {run : Run} (sound : Sound settings chain first w run) (inv : Inv settings chain first w) :
    Inv settings chain first (indexSorobanTopicsForContract settings chain w run).2 := by
  have fromChain := fromChain_step inv.fromChain run
  have more := rows_mono settings chain w run
  rcases index_cases settings chain w run with same |
    ⟨latest,fetched,latestIs,nonzero,fetches,progress,rows,cursorWas,stores,cursors⟩
  · rw [same]
    exact inv
  · rcases cursors with unmoved | ⟨done,moved⟩
    · refine ⟨fromChain,?_,?_⟩
      · intro contractId cursor cursorIs
        rw [unmoved] at cursorIs
        exact ownRows_mono more (inv.complete contractId cursor cursorIs)
      · intro contractId cursor cursorIs
        rw [unmoved] at cursorIs
        exact inv.started contractId cursor cursorIs
    · obtain ⟨whole,topics,apart⟩ := sound.pages latest latestIs nonzero fetched fetches
      obtain ⟨cursorIs,held⟩ := storeBatches_done settings run _ done topics
      obtain ⟨startsBehind,before⟩ := complete_before inv (sound.starts latest latestIs nonzero)
      have positive := resolve_positive settings w run.contractId latest
      have all := fetch_range fetches positive whole
      have reached := le_newest ContractEvent.ledger (resolveStartLedger settings w run.contractId latest - 1) fetched.events
      rw [cursorWas] at cursorIs
      change _ = newest ContractEvent.ledger _ fetched.events at cursorIs
      have fetchedOwn := fetched_ownRows fromChain all topics apart (by rw [stores]; exact held)
      have behind : ∀ a ∈ (chain.ofContracts [run.contractId]).range (first run.contractId)
          (resolveStartLedger settings w run.contractId latest - 1), ∀ b ∈ fetched.events, a.ledger < b.ledger := by
        intro a listed b listed'
        rw [← all] at listed'
        have below := (mem_range.mp listed).2.2
        have above := (mem_range.mp listed').2.1
        omega
      have own := ownRows_append (ownRows_mono more before) fetchedOwn behind
      have whole_ : (chain.ofContracts [run.contractId]).range (first run.contractId)
          (newest ContractEvent.ledger (resolveStartLedger settings w run.contractId latest - 1) fetched.events) =
            (chain.ofContracts [run.contractId]).range (first run.contractId)
              (resolveStartLedger settings w run.contractId latest - 1) ++ fetched.events := by
        have startsBefore : first run.contractId ≤ resolveStartLedger settings w run.contractId latest - 1 + 1 := by omega
        rw [range_split _ startsBefore reached,Nat.sub_add_cancel positive,all]
      refine ⟨fromChain,?_,?_⟩
      · intro contractId cursor found
        rw [moved,Function.update_apply] at found
        by_cases own_ : contractId = run.contractId
        · rw [if_pos own_,cursorIs] at found
          rw [own_,← Option.some.inj found,whole_]
          exact own
        · rw [if_neg own_] at found
          exact ownRows_mono more (inv.complete contractId cursor found)
      · intro contractId cursor found
        rw [moved,Function.update_apply] at found
        by_cases own_ : contractId = run.contractId
        · rw [if_pos own_,cursorIs] at found
          rw [own_,← Option.some.inj found]
          omega
        · rw [if_neg own_] at found
          exact inv.started contractId cursor found

theorem inv_start : Inv settings chain first World.start :=
  ⟨fun row there => (by cases there),fun _ _ found => (by cases found),fun _ _ found => (by cases found)⟩

end

/-- The paging loop of every run ends; and where every run is sound, every event of a
    contract from its first start up to its cursor has a row of its own. -/
theorem indexer_complete (settings : Settings) (chain : Chain Entry) :
    (∀ (run : Run) startLedger latest, (run.fetch settings chain startLedger latest).isSome = true) ∧
      ∀ (first : String → Nat) runs,
        (∀ t ∈ history (indexSorobanTopicsForContract settings chain) World.start runs,
          Sound settings chain first t.before t.input) →
          Complete settings chain first (run (indexSorobanTopicsForContract settings chain) World.start runs) := by
  refine ⟨fun r startLedger latest => fetch_ends latest _ _ (Nat.le_refl _),?_⟩
  intro first runs sound
  have inv : Inv settings chain first (run (indexSorobanTopicsForContract settings chain) World.start runs) := by
    induction runs using List.reverseRecOn with
    | nil => exact inv_start
    | append_singleton runs last ih =>
      rw [history_append] at sound
      rw [run_append]
      have before := ih fun t listed => sound t (List.mem_append_left _ listed)
      exact inv_step (sound _ (List.mem_append_right _ (List.mem_singleton_self _))) before
  exact inv.complete

def small : Settings := ⟨10,3,fun _ => none⟩

/-- An event of the contract `C` in the ledger 5. -/
def event (txHash topic : String) : Event := ⟨"C",5,some txHash,[.text topic]⟩

def single : Chain Entry := ⟨⟨[event "a" "t"],by decide⟩,by decide,by decide⟩

/-- Two events of a ledger with other topics. -/
def mixed : Chain Entry := ⟨⟨[event "a" "t",event "b" "u"],by decide⟩,by decide,by decide⟩

/-- Two events of a ledger with the same topics. -/
def twins : Chain Entry := ⟨⟨[event "a" "t",event "b" "t"],by decide⟩,by decide,by decide⟩

/-- A run up to the ledger 5, with pages of some size. -/
def upTo5 (count : Nat) : Run := ⟨"C",some 5,fun _ => some count,fun _ => true,true⟩

theorem indexer_complete_single :
    OwnRows small (run (indexSorobanTopicsForContract small single) World.start [upTo5 10]).sorobanTopicIndex.rows
      [event "a" "t"] := by
  have cursor : (run (indexSorobanTopicsForContract small single) World.start [upTo5 10]).sorobanTopicIndexCursor "C" =
      some 5 := by decide +kernel
  have fetches : (upTo5 10).fetch small single 3 5 = some ⟨[⟨3,[event "a" "t"]⟩],false⟩ := rfl
  have complete := (indexer_complete small single).2 (fun _ => 3) [upTo5 10] (by
    intro t listed
    obtain rfl := List.mem_singleton.mp listed
    refine ⟨?_,?_⟩
    · rintro latest ⟨⟩ _ _
      rfl
    · rintro latest ⟨⟩ _ fetched found
      obtain rfl := Option.some.inj (fetches.symm.trans found)
      refine ⟨?_,?_,List.nodup_singleton _⟩
      · intro batch member a _ b behind
        obtain rfl := List.mem_singleton.mp member
        cases behind
      · intro e member
        obtain rfl := List.mem_singleton.mp member
        exact List.cons_ne_nil _ _)
  exact complete "C" 5 cursor

/-- The second event has no row where a page ends before it, and none where its topics are
    those of the first; the cursor is at its ledger all the same. -/
theorem second_unindexed :
    ¬ Complete small mixed (fun _ => 3) (run (indexSorobanTopicsForContract small mixed) World.start [upTo5 1]) ∧
      ¬ Complete small twins (fun _ => 3)
        (run (indexSorobanTopicsForContract small twins) World.start [upTo5 10]) := by
  have absent : ∀ {chain : Chain Entry} {w : World} {topic : String},
      event "b" topic ∈ chain.log.entries → w.sorobanTopicIndexCursor "C" = some 5 →
        w.sorobanTopicIndex.rows.map TopicIndexRow.txHash = [some "a"] → ¬ Complete small chain (fun _ => 3) w := by
    intro chain w topic inChain cursor rows complete
    have listed : event "b" topic ∈ (chain.ofContracts ["C"]).range 3 5 :=
      mem_range.mpr ⟨mem_ofContracts.mpr ⟨inChain,List.mem_singleton.mpr rfl⟩,(by decide : 3 ≤ 5 ∧ 5 ≤ 5)⟩
    obtain ⟨row,there,made⟩ := (complete "C" 5 cursor).there _ listed
    have hash : row.txHash = some "b" := by rw [← Option.some.inj made]; rfl
    have member := List.mem_map_of_mem (f := TopicIndexRow.txHash) there
    rw [rows,hash] at member
    exact absurd member (by decide)
  exact ⟨absent (List.mem_cons_of_mem _ (List.mem_singleton_self _)) (by decide +kernel) (by decide +kernel),
    absent (List.mem_cons_of_mem _ (List.mem_singleton_self _)) (by decide +kernel) (by decide +kernel)⟩

end StellarAlerts.SorobanTopicIndexer
