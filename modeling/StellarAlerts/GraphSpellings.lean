import StellarAlerts.JsonTexts
import StellarAlerts.ReentrancySentinel

/-!
Invocation graphs in several spellings. Nodes name their contract and list their calls under one of
several keys, which the parser all knows; but a root that has a `contractId` is not parsed, and below
it only one spelling is seen. Exactly when what is hidden matters, the alert differs from that of
the graph in the one spelling (`spelling_exact`).
-/
namespace StellarAlerts.GraphSpellings
open JsonTexts ReentrancySentinel Trees

/-! ### Parsing -/

/-- `typeof record[key] === 'string' && record[key]`; an empty text is falsy. -/
def textUnder (record : List (String × Json)) (key : String) : Option String :=
  match lookup record key with
  | some (.string s) => if s = "" then none else some s
  | _ => none

/-- What `??` takes. -/
def present (record : List (String × Json)) (key : String) : Option Json :=
  match lookup record key with
  | some .null => none
  | value => value

def rawSubs (record : List (String × Json)) : Option Json :=
  (present record "subInvocations").or
    ((present record "sub_invocations").or ((present record "children").or (present record "calls")))

theorem lookup_of_present {record : List (String × Json)} {key : String} {value : Json}
    (is : present record key = some value) : lookup record key = some value := by
  rw [present] at is
  split at is
  · cases is
  · exact is

theorem sizeOf_rawSubs {record : List (String × Json)} {value : Json} (is : rawSubs record = some value) :
    sizeOf value < sizeOf (Json.object record) := by
  simp only [rawSubs,Option.or_eq_some_iff] at is
  rcases is with is | ⟨_,is | ⟨_,is | ⟨_,is⟩⟩⟩
  all_goals exact sizeOf_lookup (lookup_of_present is)

theorem sizeOf_item {record : List (String × Json)} {items : List Json} {item : Json}
    (smaller : sizeOf (Json.array items) < sizeOf (Json.object record)) (listed : item ∈ items) :
    sizeOf item < sizeOf (Json.object record) := by
  have member := List.sizeOf_lt_of_mem listed
  simp only [Json.array.sizeOf_spec] at smaller
  omega

def parseSingleNode (raw : Json) : Option SorobanInvocationNode :=
  match raw with
  | .object record =>
    match (textUnder record "contractId").or ((textUnder record "contract_id").or (textUnder record "address")) with
    | none => none
    | some contractId =>
      let functionName :=
        (textUnder record "functionName").or ((textUnder record "function").or (textUnder record "method"))
      let subInvocations :=
        match _found : rawSubs record with
        | some (.array items) => items.attach.filterMap fun item => parseSingleNode item.1
        | _ => []
      some (.node ⟨contractId,functionName⟩ subInvocations)
  | _ => none
termination_by sizeOf raw
decreasing_by exact sizeOf_item (sizeOf_rawSubs ‹_›) item.2

def parseInvocationGraph (rawGraph : Json) : List SorobanInvocationNode :=
  match rawGraph with
  | .array items => items.filterMap parseSingleNode
  | raw => (parseSingleNode raw).toList

/-- What the analysis sees of an object that it takes as a node, where the fields have the types of the
    interface. A node without a `contractId` is passed over with all that is below it. -/
def asNode (raw : Json) : Option SorobanInvocationNode :=
  match raw with
  | .object record =>
    match textUnder record "contractId" with
    | none => none
    | some contractId =>
      let functionName :=
        match lookup record "functionName" with
        | some (.string name) => some name
        | _ => none
      let subInvocations :=
        match _found : lookup record "subInvocations" with
        | some (.array items) => items.attach.filterMap fun item => asNode item.1
        | _ => []
      some (.node ⟨contractId,functionName⟩ subInvocations)
  | _ => none
termination_by sizeOf raw
decreasing_by exact sizeOf_item (sizeOf_lookup ‹_›) item.2

/-! ### Alerts -/

structure ReentrancyAlertPayload where
  event : String
  severity : Severity
  contractId : String
  involvedContracts : List String
  callTrace : List String
  cyclePaths : List (List String)
  maxDepthReached : Nat
  reason : String
  txHash : Option String
  ledger : Option Nat
  timestamp : Int

/-- The nodes that are analysed: `'contractId' in invocation` asks for the key alone. -/
def nodesOf (invocation : Json) : List SorobanInvocationNode :=
  match invocation with
  | .object record =>
    if (lookup record "contractId").isSome then (asNode invocation).toList else parseInvocationGraph invocation
  | _ => parseInvocationGraph invocation

/-- The alert that is returned, and given to the dispatcher if there is one. -/
def inspectAndDispatch (text : ℚ → String) (defaultMaxDepth : ℚ) (invocation : Json) (txHash : Option String)
    (ledger : Option Nat) (now : Int) : Option ReentrancyAlertPayload :=
  let result := analyzeCallTree text defaultMaxDepth (nodesOf invocation) none
  if result.threatDetected then
    some
      { event := "soroban.reentrancy_exploit_detected"
        severity := if result.severity = .CRITICAL then .CRITICAL else .HIGH
        contractId := result.involvedContracts.head?.getD "UNKNOWN_CONTRACT"
        involvedContracts := result.involvedContracts
        callTrace := result.callTrace
        cyclePaths := result.detectedCycles.map ReentrancyCycle.cyclePath
        maxDepthReached := result.maxDepthReached
        reason := result.reason.getD "Exploit pattern detected"
        txHash
        ledger
        timestamp := now }
  else none

/-! ### Spellings -/

inductive ContractKey where
  | contractId
  | contract_id
  | address
deriving DecidableEq

inductive FunctionKey where
  | functionName
  | function
  | method
deriving DecidableEq

inductive CallsKey where
  | subInvocations
  | sub_invocations
  | children
  | calls
deriving DecidableEq

def ContractKey.text : ContractKey → String
  | .contractId => "contractId"
  | .contract_id => "contract_id"
  | .address => "address"

def FunctionKey.text : FunctionKey → String
  | .functionName => "functionName"
  | .function => "function"
  | .method => "method"

def CallsKey.text : CallsKey → String
  | .subInvocations => "subInvocations"
  | .sub_invocations => "sub_invocations"
  | .children => "children"
  | .calls => "calls"

def readKeys : List String :=
  ["contractId","contract_id","address","functionName","function","method","subInvocations","sub_invocations","children",
    "calls"]

/-- A node but for the nodes below it: a contract and perhaps a function, each under one of its keys, the key
    for the calls, and members that nothing reads. -/
structure Spelling where
  contractKey : ContractKey
  contractId : String
  named : contractId ≠ ""
  functionName : Option (FunctionKey × String)
  callsKey : CallsKey
  others : List (String × Json)
  unread : ∀ member ∈ others, member.1 ∉ readKeys

def Spelling.members (s : Spelling) (calls : Json) : List (String × Json) :=
  (s.contractKey.text,.string s.contractId) :: (s.callsKey.text,calls) ::
    (s.functionName.map fun name => (name.1.text,Json.string name.2)).toList ++ s.others

mutual
def toJson : Rose Spelling → Json
  | .node s calls => .object (s.members (.array (toJsonAll calls)))
def toJsonAll : List (Rose Spelling) → List Json
  | [] => []
  | node :: rest => toJson node :: toJsonAll rest
end

/-- A root, or an array of roots. -/
inductive Graph where
  | single (root : Rose Spelling)
  | list (roots : List (Rose Spelling))

def Graph.roots : Graph → List (Rose Spelling)
  | .single root => [root]
  | .list roots => roots

def Graph.json : Graph → Json
  | .single root => toJson root
  | .list roots => .array (toJsonAll roots)

def Spelling.canonical (s : Spelling) : Spelling := { s with contractKey := .contractId, callsKey := .subInvocations }

/-- The same graph, spelled with `contractId` and `subInvocations` throughout. -/
def Graph.canonical : Graph → Graph
  | .single root => .single (root.map Spelling.canonical)
  | .list roots => .list (mapAll Spelling.canonical roots)

/-! ### What is read of a node -/

theorem lookup_append (first second : List (String × Json)) (key : String) :
    lookup (first ++ second) key = (lookup second key).or (lookup first key) := by
  induction first with
  | nil => simp [lookup]
  | cons member rest ih =>
    obtain ⟨name,value⟩ := member
    rw [List.cons_append,lookup_cons,lookup_cons,ih,Option.or_assoc]

theorem lookup_others (s : Spelling) {key : String} (isRead : key ∈ readKeys) : lookup s.others key = none := by
  rw [lookup,Option.map_eq_none_iff,List.find?_eq_none]
  intro member listed same
  have name : member.1 = key := of_decide_eq_true same
  exact s.unread member (List.mem_reverse.mp listed) (name ▸ isRead)

theorem ContractKey.text_inj (k k' : ContractKey) : k.text = k'.text ↔ k = k' := by
  cases k <;> cases k' <;> decide
theorem CallsKey.text_inj (k k' : CallsKey) : k.text = k'.text ↔ k = k' := by
  cases k <;> cases k' <;> decide
theorem contract_ne_calls (k : ContractKey) (k' : CallsKey) : k.text ≠ k'.text := by
  cases k <;> cases k' <;> decide
theorem contract_ne_function (k : ContractKey) (k' : FunctionKey) : k.text ≠ k'.text := by
  cases k <;> cases k' <;> decide
theorem calls_ne_function (k : CallsKey) (k' : FunctionKey) : k.text ≠ k'.text := by
  cases k <;> cases k' <;> decide

section
variable (s : Spelling)
include s

theorem lookup_members (calls : Json) {key : String} (isRead : key ∈ readKeys) :
    lookup (s.members calls) key =
      (lookup (s.functionName.map fun name => (name.1.text,Json.string name.2)).toList key).or
        ((if s.callsKey.text = key then some calls else none).or
          (if s.contractKey.text = key then some (.string s.contractId) else none)) := by
  rw [Spelling.members,lookup_append,lookup_others s isRead,lookup_cons,lookup_cons,Option.none_or,Option.or_assoc]

theorem lookup_contract (calls : Json) (k : ContractKey) :
    lookup (s.members calls) k.text = if s.contractKey = k then some (.string s.contractId) else none := by
  have isRead : k.text ∈ readKeys := by cases k <;> decide
  rw [lookup_members s calls isRead,if_neg (Ne.symm (contract_ne_calls k s.callsKey)),Option.none_or,
    if_congr (ContractKey.text_inj ..) rfl rfl]
  cases s.functionName with
  | none => rfl
  | some name => simp [lookup,Ne.symm (contract_ne_function k name.1)]

theorem lookup_calls (calls : Json) (k : CallsKey) :
    lookup (s.members calls) k.text = if s.callsKey = k then some calls else none := by
  have isRead : k.text ∈ readKeys := by cases k <;> decide
  rw [lookup_members s calls isRead,if_neg (contract_ne_calls s.contractKey k),Option.or_none,
    if_congr (CallsKey.text_inj ..) rfl rfl]
  cases s.functionName with
  | none => rfl
  | some name => simp [lookup,Ne.symm (calls_ne_function k name.1)]

theorem textUnder_contract (calls : Json) (k : ContractKey) :
    textUnder (s.members calls) k.text = if s.contractKey = k then some s.contractId else none := by
  rw [textUnder,lookup_contract]
  by_cases own : s.contractKey = k
  · simp [own,s.named]
  · simp [own]

theorem present_calls (items : List Json) (k : CallsKey) :
    present (s.members (.array items)) k.text = if s.callsKey = k then some (.array items) else none := by
  rw [present,lookup_calls]
  by_cases own : s.callsKey = k
  · simp [own]
  · simp [own]

theorem rawSubs_members (items : List Json) : rawSubs (s.members (.array items)) = some (.array items) := by
  have first : present (s.members (.array items)) "subInvocations" = _ := present_calls s items .subInvocations
  have second : present (s.members (.array items)) "sub_invocations" = _ := present_calls s items .sub_invocations
  have third : present (s.members (.array items)) "children" = _ := present_calls s items .children
  have fourth : present (s.members (.array items)) "calls" = _ := present_calls s items .calls
  rw [rawSubs,first,second,third,fourth]
  cases s.callsKey <;> rfl

theorem parseSingleNode_members (items : List Json) :
    ∃ functionName, parseSingleNode (.object (s.members (.array items))) =
      some (.node ⟨s.contractId,functionName⟩ (items.filterMap parseSingleNode)) := by
  have first : textUnder (s.members (.array items)) "contractId" = _ := textUnder_contract s _ .contractId
  have second : textUnder (s.members (.array items)) "contract_id" = _ := textUnder_contract s _ .contract_id
  have third : textUnder (s.members (.array items)) "address" = _ := textUnder_contract s _ .address
  have named : (textUnder (s.members (.array items)) "contractId").or
      ((textUnder (s.members (.array items)) "contract_id").or (textUnder (s.members (.array items)) "address")) =
        some s.contractId := by
    rw [first,second,third]
    cases s.contractKey <;> rfl
  rw [parseSingleNode,named]
  refine ⟨_,congrArg some (congrArg (Rose.node _) ?_)⟩
  split
  · next found =>
    rw [rawSubs_members] at found
    cases found
    simp
  · next other => exact absurd (rawSubs_members s items) (other items)

theorem asNode_members (items : List Json) :
    asNode (.object (s.members (.array items))) = none ∧ s.contractKey ≠ .contractId ∨
      s.contractKey = .contractId ∧ ∃ functionName, asNode (.object (s.members (.array items))) =
        some (.node ⟨s.contractId,functionName⟩ (if s.callsKey = .subInvocations then items.filterMap asNode else [])) := by
  have name : textUnder (s.members (.array items)) "contractId" = _ := textUnder_contract s _ .contractId
  have calls : lookup (s.members (.array items)) "subInvocations" = _ := lookup_calls s _ .subInvocations
  by_cases own : s.contractKey = .contractId
  · rw [if_pos own] at name
    rw [asNode,name]
    refine .inr ⟨own,_,congrArg some (congrArg (Rose.node _) ?_)⟩
    split
    · next found =>
      rw [calls] at found
      split at found
      · next opened =>
        cases found
        simp [opened]
      · cases found
    · next other =>
      by_cases opened : s.callsKey = .subInvocations
      · rw [if_pos opened] at calls
        exact absurd calls (other items)
      · rw [if_neg opened]
  · rw [if_neg own] at name
    rw [asNode,name]
    exact .inl ⟨rfl,own⟩

end

/-! ### Chains of a graph -/

/-- The contracts from a root down to each node, in preorder. -/
def contractChains (forest : List (Rose Spelling)) : List (List String) :=
  (pathsAll forest).map (List.map Spelling.contractId)

/-- A node that is seen unparsed, and one whose calls are. -/
def shown (s : Spelling) : Bool := s.contractKey = .contractId
def opened (s : Spelling) : Bool := s.callsKey = .subInvocations

/-- The path is seen unparsed down to its end. -/
def visible (path : List Spelling) : Bool := seen shown opened path

theorem contractChains_cons (s : Spelling) (calls rest : List (Rose Spelling)) :
    contractChains (.node s calls :: rest) =
      [s.contractId] :: (contractChains calls).map (s.contractId :: ·) ++ contractChains rest := by
  simp [contractChains,Function.comp_def]

theorem chains_parsed (forest : List (Rose Spelling)) :
    chains ((toJsonAll forest).filterMap parseSingleNode) = contractChains forest := by
  induction forest using forest_rec with
  | nil => simp [toJsonAll,contractChains]
  | cons s calls rest below beside =>
    obtain ⟨functionName,is⟩ := parseSingleNode_members s (toJsonAll calls)
    rw [toJsonAll,toJson,List.filterMap_cons_some is,chains_cons,below,beside,contractChains_cons]

theorem chains_unparsed (forest : List (Rose Spelling)) :
    chains ((toJsonAll forest).filterMap asNode) = contractChains (pruneAll shown opened forest) := by
  induction forest using forest_rec with
  | nil => simp [toJsonAll,contractChains,pruneAll]
  | cons s calls rest below beside =>
    rw [toJsonAll,toJson,pruneAll,Rose.prune]
    rcases asNode_members s (toJsonAll calls) with ⟨is,hidden⟩ | ⟨isShown,functionName,is⟩
    · rw [List.filterMap_cons_none is,beside,if_neg (by simpa [shown] using hidden)]
      rfl
    · have some_ : shown s = true := decide_eq_true isShown
      rw [List.filterMap_cons_some is,chains_cons,beside,some_,if_pos rfl,Option.toList_some,List.singleton_append,
        contractChains_cons]
      by_cases isOpened : s.callsKey = .subInvocations
      · have same : opened s = true := by simpa [opened] using isOpened
        rw [if_pos isOpened,if_pos same,below]
      · have same : ¬ opened s = true := by simpa [opened] using isOpened
        rw [if_neg isOpened,if_neg same]
        simp [contractChains]

theorem contractChains_pruned (forest : List (Rose Spelling)) :
    contractChains (pruneAll shown opened forest) = ((pathsAll forest).filter visible).map (List.map Spelling.contractId) := by
  rw [contractChains,pathsAll_pruneAll]
  rfl

def Graph.Parsed : Graph → Prop
  | .single (.node s _) => s.contractKey ≠ .contractId
  | .list _ => True

theorem chains_nodesOf (g : Graph) :
    (g.Parsed → chains (nodesOf g.json) = contractChains g.roots) ∧
      (¬ g.Parsed → chains (nodesOf g.json) = ((pathsAll g.roots).filter visible).map (List.map Spelling.contractId)) := by
  cases g with
  | list roots =>
    refine ⟨fun _ => ?_,fun unparsed => absurd trivial unparsed⟩
    exact chains_parsed roots
  | single root =>
    obtain ⟨s,calls⟩ := root
    have name : lookup (s.members (.array (toJsonAll calls))) "contractId" = _ := lookup_contract s _ .contractId
    have parsed := chains_parsed [.node s calls]
    have unparsed := chains_unparsed [.node s calls]
    simp only [toJsonAll,toJson] at parsed unparsed
    constructor
    · intro isParsed
      rw [if_neg isParsed] at name
      have nodes : nodesOf (Graph.single (.node s calls)).json =
          [Json.object (s.members (.array (toJsonAll calls)))].filterMap parseSingleNode := by
        rw [Graph.json,toJson,nodesOf,name,if_neg (by simp),parseInvocationGraph]
        · simp only [List.filterMap_cons,List.filterMap_nil]
          cases parseSingleNode (.object (s.members (.array (toJsonAll calls)))) <;> rfl
        · simp
      rw [nodes,parsed]
      rfl
    · intro isUnparsed
      rw [if_pos (not_not.mp isUnparsed)] at name
      have nodes : nodesOf (Graph.single (.node s calls)).json =
          [Json.object (s.members (.array (toJsonAll calls)))].filterMap asNode := by
        rw [Graph.json,toJson,nodesOf,name,if_pos (by simp)]
        simp only [List.filterMap_cons,List.filterMap_nil]
        cases asNode (.object (s.members (.array (toJsonAll calls)))) <;> rfl
      rw [nodes,unparsed,contractChains_pruned]
      rfl

theorem chains_canonical (g : Graph) : chains (nodesOf g.canonical.json) = contractChains g.roots := by
  have same : ∀ forest, contractChains (mapAll Spelling.canonical forest) = contractChains forest := by
    intro forest
    rw [contractChains,pathsAll_mapAll,List.map_map]
    refine List.map_congr_left fun path _ => ?_
    rw [Function.comp_apply,List.map_map]
    rfl
  cases g with
  | list roots => exact ((chains_nodesOf (.list (mapAll Spelling.canonical roots))).1 trivial).trans (same roots)
  | single root =>
    obtain ⟨s,calls⟩ := root
    have unparsed : ¬ (Graph.single (.node s calls)).canonical.Parsed := by
      rw [Graph.canonical,Rose.map,Graph.Parsed]
      exact fun other => other rfl
    have roots : (Graph.single (.node s calls)).canonical.roots = mapAll Spelling.canonical [.node s calls] := by
      simp [Graph.canonical,Graph.roots,Rose.map]
    have all : (pathsAll (mapAll Spelling.canonical [.node s calls])).filter visible =
        pathsAll (mapAll Spelling.canonical [.node s calls]) := by
      rw [List.filter_eq_self]
      intro path listed
      rw [pathsAll_mapAll] at listed
      obtain ⟨original,_,rfl⟩ := List.mem_map.mp listed
      have each : ∀ s ∈ original.map Spelling.canonical, shown s = true ∧ opened s = true := by
        intro s listed
        obtain ⟨_,_,rfl⟩ := List.mem_map.mp listed
        exact ⟨rfl,rfl⟩
      rw [visible,seen,Bool.and_eq_true,List.all_eq_true,List.all_eq_true]
      exact ⟨fun s listed => (each s listed).1,fun s listed => (each s ((List.dropLast_subset _) listed)).2⟩
    rw [(chains_nodesOf _).2 unparsed,roots,all]
    exact same [.node s calls]

/-! ### What is raised -/

/-- The length of the longest chain. -/
def depthOf (all : List (List String)) : Nat := all.foldr (fun chain most => max chain.length most) 0

theorem depthOf_le_iff (all : List (List String)) (n : Nat) : depthOf all ≤ n ↔ ∀ chain ∈ all, chain.length ≤ n := by
  induction all with
  | nil => simp [depthOf]
  | cons chain rest ih =>
    rw [depthOf,List.foldr_cons,max_le_iff,List.forall_mem_cons,← depthOf,ih]

theorem length_le_depthOf (all : List (List String)) {chain : List String} (listed : chain ∈ all) :
    chain.length ≤ depthOf all := (depthOf_le_iff all _).mp (le_refl _) chain listed

theorem depthOf_attained (all : List (List String)) (some_ : all ≠ []) : ∃ chain ∈ all, chain.length = depthOf all := by
  cases depth : depthOf all with
  | zero =>
    obtain ⟨chain,listed⟩ := List.exists_mem_of_ne_nil all some_
    have le := length_le_depthOf all listed
    exact ⟨chain,listed,by omega⟩
  | succ n =>
    by_contra shorter
    push Not at shorter
    have most : depthOf all ≤ n := (depthOf_le_iff all n).mpr fun chain listed => by
      have le := length_le_depthOf all listed
      have ne := shorter chain listed
      omega
    omega

theorem lt_depthOf_iff {limit : ℚ} {all : List (List String)} (some_ : all ≠ []) :
    limit < (depthOf all : ℚ) ↔ ∃ chain ∈ all, limit < chain.length := by
  constructor
  · intro exceeds
    obtain ⟨chain,listed,longest⟩ := depthOf_attained all some_
    exact ⟨chain,listed,longest ▸ exceeds⟩
  · rintro ⟨chain,listed,exceeds⟩
    exact exceeds.trans_le (by exact_mod_cast length_le_depthOf all listed)

def cyclePathsOf (all : List (List String)) : List (List String) := (all.filterMap cycleOf).map ReentrancyCycle.cyclePath

/-- What chains give rise to. -/
def reportOf (limit : ℚ) (all : List (List String)) : Option (List (List String) × Nat) :=
  if cyclePathsOf all ≠ [] ∨ limit < (depthOf all : ℚ) then some (cyclePathsOf all,depthOf all) else none

def raised (text : ℚ → String) (defaultMaxDepth : ℚ) (g : Graph) (txHash : Option String) (ledger : Option Nat) (now : Int) :
    Option (List (List String) × Nat) :=
  (inspectAndDispatch text defaultMaxDepth g.json txHash ledger now).map fun alert => (alert.cyclePaths,alert.maxDepthReached)

section Raised
variable (text : ℚ → String) (defaultMaxDepth : ℚ) (txHash : Option String) (ledger : Option Nat) (now : Int)

theorem raised_eq {g : Graph} (named : Named (nodesOf g.json)) :
    raised text defaultMaxDepth g txHash ledger now = reportOf defaultMaxDepth (chains (nodesOf g.json)) := by
  have cycles := walk_cycles named
  have depth : (walk (nodesOf g.json)).maxDepthReached = depthOf (chains (nodesOf g.json)) := by
    refine eq_of_forall_ge_iff fun n => ?_
    rw [walk_depth named,height_le_iff,depthOf_le_iff]
    simp [chains]
  rw [raised,inspectAndDispatch,reportOf,cyclePathsOf,← cycles,← depth]
  simp only [analyzeCallTree,Option.getD_none,Bool.or_eq_true,decide_eq_true_eq,List.length_pos_iff,ne_eq,List.map_eq_nil_iff]
  split <;> rfl

end Raised

theorem named_chains {forest : List (Rose Spelling)} {chain : List String} (listed : chain ∈ contractChains forest) :
    "" ∉ chain := by
  obtain ⟨path,_,rfl⟩ := List.mem_map.mp listed
  intro empty
  obtain ⟨s,_,same⟩ := List.mem_map.mp empty
  exact s.named same

theorem filterMap_filter_iff {α β : Type} (f : α → Option β) (p : α → Bool) (l : List α) :
    (l.filter p).filterMap f = l.filterMap f ↔ ∀ a ∈ l, (f a).isSome → p a = true := by
  induction l with
  | nil => simp
  | cons a rest ih =>
    rw [List.forall_mem_cons,← ih]
    cases kept : p a with
    | true => cases chosen : f a <;> simp [kept,chosen]
    | false =>
      cases chosen : f a with
      | none => simp [kept,chosen]
      | some b =>
        rw [List.filter_cons_of_neg (by simp [kept]),List.filterMap_cons_some chosen]
        refine ⟨fun same => ?_,fun both => absurd (both.1 rfl) (by simp)⟩
        have shorter : ((rest.filter p).filterMap f).length ≤ (rest.filterMap f).length :=
          (List.filter_sublist.filterMap f).length_le
        rw [same,List.length_cons] at shorter
        omega

section Exact
variable {all : List (List Spelling)}

/-- The chains of paths. -/
def contractsOf (all : List (List Spelling)) : List (List String) := all.map (List.map Spelling.contractId)

theorem cyclePathsOf_visible_iff :
    cyclePathsOf (contractsOf (all.filter visible)) = cyclePathsOf (contractsOf all) ↔
      ∀ path ∈ all, Reenters (path.map Spelling.contractId) → visible path = true := by
  have asOne : ∀ paths, cyclePathsOf (contractsOf paths) =
      paths.filterMap fun path => (cycleOf (path.map Spelling.contractId)).map ReentrancyCycle.cyclePath := by
    intro paths
    rw [cyclePathsOf,contractsOf,List.filterMap_map,List.map_filterMap]
    rfl
  rw [asOne,asOne,filterMap_filter_iff]
  simp only [Option.isSome_map,reenters_iff]

theorem depthOf_visible_le : depthOf (contractsOf (all.filter visible)) ≤ depthOf (contractsOf all) := by
  rw [depthOf_le_iff]
  intro chain listed
  obtain ⟨path,isVisible,rfl⟩ := List.mem_map.mp listed
  exact length_le_depthOf (contractsOf all) (List.mem_map_of_mem (List.mem_of_mem_filter isVisible))

theorem depthOf_visible_iff (some_ : all.filter visible ≠ []) :
    depthOf (contractsOf (all.filter visible)) = depthOf (contractsOf all) ↔
      ∃ path ∈ all, visible path = true ∧ ∀ other ∈ all, other.length ≤ path.length := by
  constructor
  · intro same
    obtain ⟨chain,listed,longest⟩ := depthOf_attained (contractsOf (all.filter visible)) (by simpa [contractsOf] using some_)
    obtain ⟨path,isVisible,rfl⟩ := List.mem_map.mp listed
    obtain ⟨isPath,sees⟩ := List.mem_filter.mp isVisible
    refine ⟨path,isPath,sees,fun other isOther => ?_⟩
    have le := length_le_depthOf (contractsOf all) (List.mem_map_of_mem isOther)
    rw [List.length_map] at le longest
    omega
  · rintro ⟨path,isPath,sees,longest⟩
    refine le_antisymm depthOf_visible_le ((depthOf_le_iff _ _).mpr ?_)
    intro chain listed
    obtain ⟨other,isOther,rfl⟩ := List.mem_map.mp listed
    have le := length_le_depthOf (contractsOf (all.filter visible))
      (List.mem_map_of_mem (List.mem_filter.mpr ⟨isPath,sees⟩))
    rw [List.length_map] at le ⊢
    exact (longest other isOther).trans le

theorem quiet_visible {limit : ℚ} (quiet : ¬ (cyclePathsOf (contractsOf all) ≠ [] ∨ limit < (depthOf (contractsOf all) : ℚ))) :
    ¬ (cyclePathsOf (contractsOf (all.filter visible)) ≠ [] ∨ limit < (depthOf (contractsOf (all.filter visible)) : ℚ)) := by
  rintro (cycles | exceeds)
  · refine quiet (.inl fun none_ => cycles ?_)
    have sub : (cyclePathsOf (contractsOf (all.filter visible))).Sublist (cyclePathsOf (contractsOf all)) :=
      ((List.filter_sublist.map _).filterMap _).map _
    rw [none_] at sub
    exact List.sublist_nil.mp sub
  · refine quiet (.inr (exceeds.trans_le ?_))
    exact_mod_cast depthOf_visible_le

theorem reportOf_visible_iff (all : List (List Spelling)) (limit : ℚ) :
    reportOf limit (contractsOf (all.filter visible)) = reportOf limit (contractsOf all) ↔
      ¬ (cyclePathsOf (contractsOf all) ≠ [] ∨ limit < (depthOf (contractsOf all) : ℚ)) ∨
        cyclePathsOf (contractsOf (all.filter visible)) = cyclePathsOf (contractsOf all) ∧
          depthOf (contractsOf (all.filter visible)) = depthOf (contractsOf all) := by
  rw [reportOf,reportOf]
  by_cases threat : cyclePathsOf (contractsOf all) ≠ [] ∨ limit < (depthOf (contractsOf all) : ℚ)
  · rw [if_pos threat]
    constructor
    · intro same
      split at same
      · exact .inr (Prod.mk.inj (Option.some.inj same))
      · cases same
    · rintro (quiet | ⟨cycles,depth⟩)
      · exact absurd threat quiet
      · rw [cycles,depth,if_pos threat]
  · rw [if_neg threat,if_neg (quiet_visible threat)]
    exact ⟨fun _ => .inl threat,fun _ => rfl⟩

end Exact

theorem cyclePathsOf_eq_nil_iff (all : List (List String)) : cyclePathsOf all = [] ↔ ∀ chain ∈ all, ¬ Reenters chain := by
  rw [cyclePathsOf,List.map_eq_nil_iff,List.filterMap_eq_nil_iff]
  refine forall₂_congr fun chain _ => ?_
  rw [← reenters_iff,Option.not_isSome_iff_eq_none]

/-- What is raised for a graph is what is raised for it in the one spelling exactly if the root is parsed, or there is
    nothing to report, or every call that re-enters and some deepest call are seen unparsed. -/
theorem spelling_exact (text : ℚ → String) (defaultMaxDepth : ℚ) (g : Graph) (txHash : Option String) (ledger : Option Nat)
    (now : Int) :
    raised text defaultMaxDepth g txHash ledger now = raised text defaultMaxDepth g.canonical txHash ledger now ↔
      g.Parsed ∨
        (∀ path ∈ pathsAll g.roots, ¬ Reenters (path.map Spelling.contractId) ∧ path.length ≤ defaultMaxDepth) ∨
        (∀ path ∈ pathsAll g.roots, Reenters (path.map Spelling.contractId) → visible path = true) ∧
          ∃ path ∈ pathsAll g.roots, visible path = true ∧ ∀ other ∈ pathsAll g.roots, other.length ≤ path.length := by
  have whole := chains_canonical g
  have named : Named (nodesOf g.canonical.json) := fun chain listed => named_chains (whole ▸ listed)
  by_cases parsed : g.Parsed
  · have same := (chains_nodesOf g).1 parsed
    have named' : Named (nodesOf g.json) := fun chain listed => named_chains (same ▸ listed)
    rw [raised_eq text defaultMaxDepth txHash ledger now named,raised_eq text defaultMaxDepth txHash ledger now named',whole,same]
    exact ⟨fun _ => .inl parsed,fun _ => rfl⟩
  · have part := (chains_nodesOf g).2 parsed
    have named' : Named (nodesOf g.json) := by
      intro chain listed
      rw [part,← contractChains_pruned] at listed
      exact named_chains listed
    rw [raised_eq text defaultMaxDepth txHash ledger now named,raised_eq text defaultMaxDepth txHash ledger now named',whole,part]
    cases g with
    | list roots => exact absurd trivial parsed
    | single root =>
      obtain ⟨s,calls⟩ := root
      have isShown : s.contractKey = .contractId := not_not.mp parsed
      have first : [s] ∈ (pathsAll (Graph.single (.node s calls)).roots).filter visible := by
        rw [Graph.roots,pathsAll_cons,List.mem_filter]
        exact ⟨List.mem_cons_self ..,by simp [visible,seen,shown,isShown]⟩
      have all : contractsOf (pathsAll (Graph.single (.node s calls)).roots) ≠ [] := by
        rw [Graph.roots,pathsAll_cons]
        simp [contractsOf]
      have quiet : ¬ (cyclePathsOf (contractsOf (pathsAll (Graph.single (.node s calls)).roots)) ≠ [] ∨
            defaultMaxDepth < (depthOf (contractsOf (pathsAll (Graph.single (.node s calls)).roots)) : ℚ)) ↔
          ∀ path ∈ pathsAll (Graph.single (.node s calls)).roots,
            ¬ Reenters (path.map Spelling.contractId) ∧ path.length ≤ defaultMaxDepth := by
        rw [not_or,not_not,cyclePathsOf_eq_nil_iff,lt_depthOf_iff all]
        push Not
        simp only [contractsOf,List.forall_mem_map,List.length_map]
        exact ⟨fun both path listed => ⟨both.1 path listed,both.2 path listed⟩,
          fun both => ⟨fun path listed => (both path listed).1,fun path listed => (both path listed).2⟩⟩
      have report := reportOf_visible_iff (pathsAll (Graph.single (.node s calls)).roots) defaultMaxDepth
      rw [quiet,cyclePathsOf_visible_iff,depthOf_visible_iff (List.ne_nil_of_mem first)] at report
      exact report.trans ⟨.inr,fun either => either.resolve_left parsed⟩

/-! A pool is entered again through a contract that goes by `contract_id`. -/

def plain (contractKey : ContractKey) (contractId : String) (named : contractId ≠ "") (callsKey : CallsKey) : Spelling :=
  ⟨contractKey,contractId,named,none,callsKey,[],fun _ listed => (List.not_mem_nil listed).elim⟩

def nested : Rose Spelling :=
  .node (plain .contractId "POOL" (by decide) .subInvocations)
    [.node (plain .contract_id "USER" (by decide) .children) [.node (plain .contractId "POOL" (by decide) .subInvocations) []]]

theorem nested_missed :
    raised (fun _ => "8") 8 (.single nested) none none 0 = none ∧
      raised (fun _ => "8") 8 (Graph.single nested).canonical none none 0 = some ([["POOL","USER","POOL"]],3) := by
  have paths : contractChains [nested] = [["POOL"],["POOL","USER"],["POOL","USER","POOL"]] := by
    simp [contractChains,nested,plain]
  have whole : chains (nodesOf (Graph.single nested).canonical.json) = _ := (chains_canonical (.single nested)).trans paths
  have part : chains (nodesOf (Graph.single nested).json) = [["POOL"]] := by
    rw [(chains_nodesOf (.single nested)).2 (fun other => other rfl)]
    simp [Graph.roots,nested,plain,visible,seen,shown,opened]
  constructor
  · rw [raised_eq _ _ _ _ _ (fun chain listed => by rw [part] at listed; simp at listed; simp [listed]),part]
    simp [reportOf,cyclePathsOf,cycleOf,depthOf]
  · rw [raised_eq _ _ _ _ _ (fun chain listed => named_chains (chains_canonical (.single nested) ▸ listed)),whole]
    simp [reportOf,cyclePathsOf,cycleOf,depthOf]

end StellarAlerts.GraphSpellings
