import Mathlib.Data.List.Forall2
import Mathlib.Data.List.Induction
import Mathlib.Tactic.NormNum
import StellarAlerts.Trees

/-!
The sentinel that looks for re-entrant calls in a forest of invocations.
-/
namespace StellarAlerts.ReentrancySentinel
open Trees

structure Invocation where
  contractId : String
  functionName : Option String
deriving DecidableEq

/-- An invocation with its `subInvocations`. -/
abbrev SorobanInvocationNode := Rose Invocation

structure ReentrancyCycle where
  contractId : String
  cyclePath : List String
deriving DecidableEq

inductive Severity where
  | CRITICAL
  | HIGH
  | NONE
deriving DecidableEq, Repr

structure ReentrancyAnalysisResult where
  hasReentrancy : Bool
  hasExcessiveDepth : Bool
  threatDetected : Bool
  severity : Severity
  maxDepthReached : Nat
  maxConfiguredDepth : ℚ
  detectedCycles : List ReentrancyCycle
  involvedContracts : List String
  callTrace : List String
  reason : Option String

/-- What `traverse` has gathered. -/
structure Traversal where
  maxDepthReached : Nat
  detectedCycles : List ReentrancyCycle
  /-- A set in the order in which its members came. -/
  involvedContracts : List String
  callTrace : List String

/-- `contractId.substring(0, 8)` of the ASCII of a contract id. -/
def describe (call : Invocation) : String :=
  String.ofList (call.contractId.toList.take 8) ++ "...::" ++ call.functionName.getD "invoke" ++ "()"

/-- What a node adds, found below the calls of the stack. -/
def Traversal.visit (t : Traversal) (call : Invocation) (currentDepth : Nat) (activeCallStack : List String)
    (tracePrefix : String) : Traversal where
  maxDepthReached := if t.maxDepthReached < currentDepth then currentDepth else t.maxDepthReached
  detectedCycles :=
    if call.contractId ∈ activeCallStack then
      t.detectedCycles ++
        [⟨call.contractId,activeCallStack.drop (activeCallStack.idxOf call.contractId) ++ [call.contractId]⟩]
    else t.detectedCycles
  involvedContracts :=
    if call.contractId ∈ t.involvedContracts then t.involvedContracts else t.involvedContracts ++ [call.contractId]
  callTrace := t.callTrace ++ [tracePrefix ++ "[depth " ++ toString currentDepth ++ "] " ++ describe call]

mutual
def traverse (node : SorobanInvocationNode) (currentDepth : Nat) (activeCallStack : List String) (tracePrefix : String)
    (t : Traversal) : Traversal :=
  match node with
  | .node call subInvocations =>
    if call.contractId = "" then t
    else
      traverseAll subInvocations (currentDepth + 1) (activeCallStack ++ [call.contractId]) (tracePrefix ++ "  ")
        (t.visit call currentDepth activeCallStack tracePrefix)
def traverseAll (nodes : List SorobanInvocationNode) (currentDepth : Nat) (activeCallStack : List String)
    (tracePrefix : String) (t : Traversal) : Traversal :=
  match nodes with
  | [] => t
  | node :: rest =>
    traverseAll rest currentDepth activeCallStack tracePrefix (traverse node currentDepth activeCallStack tracePrefix t)
end

def severityOf (hasReentrancy hasExcessiveDepth : Bool) : Severity :=
  if hasReentrancy && hasExcessiveDepth then .CRITICAL
  else if hasReentrancy then .CRITICAL
  else if hasExcessiveDepth then .HIGH
  else .NONE

section Analysis
variable (text : ℚ → String)

def reasonOf (t : Traversal) (maxDepthLimit : ℚ) (hasReentrancy hasExcessiveDepth : Bool) : Option String :=
  if hasReentrancy && hasExcessiveDepth then
    some ("Circular re-entry detected (" ++ toString t.detectedCycles.length ++ " cycle(s)) and recursion depth " ++
      toString t.maxDepthReached ++ " exceeded threshold " ++ text maxDepthLimit)
  else if hasReentrancy then
    some ("Circular re-entry detected (" ++ toString t.detectedCycles.length ++ " cycle(s)): " ++
      " -> ".intercalate ((t.detectedCycles.head?.map (·.cyclePath)).getD []))
  else if hasExcessiveDepth then
    some ("Excessive call depth " ++ toString t.maxDepthReached ++ " exceeded maximum threshold of " ++ text maxDepthLimit)
  else none

def walk (roots : List SorobanInvocationNode) : Traversal := traverseAll roots 1 [] "" ⟨0,[],[],[]⟩

/-- The analysis of a forest; a single root is a forest of one. The limit of the call comes before the sentinel's. -/
def analyzeCallTree (defaultMaxDepth : ℚ) (roots : List SorobanInvocationNode) (maxDepth : Option ℚ) :
    ReentrancyAnalysisResult :=
  let maxDepthLimit := maxDepth.getD defaultMaxDepth
  let t := walk roots
  let hasReentrancy := decide (0 < t.detectedCycles.length)
  let hasExcessiveDepth := decide (maxDepthLimit < t.maxDepthReached)
  { hasReentrancy
    hasExcessiveDepth
    threatDetected := hasReentrancy || hasExcessiveDepth
    severity := severityOf hasReentrancy hasExcessiveDepth
    maxDepthReached := t.maxDepthReached
    maxConfiguredDepth := maxDepthLimit
    detectedCycles := t.detectedCycles
    involvedContracts := t.involvedContracts
    callTrace := t.callTrace
    reason := reasonOf text t maxDepthLimit hasReentrancy hasExcessiveDepth }

end Analysis

def chains (roots : List SorobanInvocationNode) : List (List String) :=
  (pathsAll roots).map (List.map Invocation.contractId)

/-- The last call of the chain is of a contract that is called above it. -/
def Reenters (chain : List String) : Prop := ∃ above own, chain = above ++ [own] ∧ own ∈ above

/-- The cycle reaches from the outermost call of its contract down to the end of the chain. -/
def Closes (chain : List String) (cycle : ReentrancyCycle) : Prop :=
  ∃ above between, chain = above ++ cycle.contractId :: between ++ [cycle.contractId] ∧ cycle.contractId ∉ above ∧
    cycle.cyclePath = cycle.contractId :: between ++ [cycle.contractId]

def cycleOf (chain : List String) : Option ReentrancyCycle :=
  chain.getLast?.bind fun own =>
    if own ∈ chain.dropLast then some ⟨own,chain.dropLast.drop (chain.dropLast.idxOf own) ++ [own]⟩ else none

theorem cycleOf_append (above : List String) (own : String) :
    cycleOf (above ++ [own]) = if own ∈ above then some ⟨own,above.drop (above.idxOf own) ++ [own]⟩ else none := by
  simp [cycleOf]

theorem reenters_append_iff {above : List String} {own : String} : Reenters (above ++ [own]) ↔ own ∈ above := by
  constructor
  · rintro ⟨others,last,same,listed⟩
    obtain ⟨rfl,rest⟩ := List.append_inj' same rfl
    cases rest
    exact listed
  · intro listed
    exact ⟨above,own,rfl,listed⟩

theorem cycleOf_spec (chain : List String) :
    (∃ cycle, cycleOf chain = some cycle ∧ Reenters chain ∧ Closes chain cycle) ∨
      (cycleOf chain = none ∧ ¬ Reenters chain) := by
  induction chain using List.reverseRecOn with
  | nil => exact .inr ⟨rfl,fun ⟨above,own,same,_⟩ => List.append_ne_nil_of_right_ne_nil above (List.cons_ne_nil own []) same.symm⟩
  | append_singleton above own _ =>
    rw [cycleOf_append,reenters_append_iff]
    by_cases listed : own ∈ above
    · rw [if_pos listed]
      refine .inl ⟨_,rfl,listed,above.take (above.idxOf own),above.drop (above.idxOf own + 1),?_,?_,?_⟩
      · have position := List.idxOf_lt_length_of_mem listed
        have split := List.take_append_drop (above.idxOf own) above
        rw [List.drop_eq_getElem_cons position,List.getElem_idxOf position] at split
        rw [split]
      · intro (early : own ∈ above.take (above.idxOf own))
        have position := List.idxOf_lt_length_of_mem early
        rw [List.length_take] at position
        have same : (above.take (above.idxOf own) ++ above.drop (above.idxOf own)).idxOf own =
            (above.take (above.idxOf own)).idxOf own := List.idxOf_append_of_mem early
        rw [List.take_append_drop] at same
        omega
      · have position := List.idxOf_lt_length_of_mem listed
        rw [List.drop_eq_getElem_cons position,List.getElem_idxOf position]
    · rw [if_neg listed]
      exact .inr ⟨rfl,listed⟩

theorem visit_cycles (t : Traversal) (call : Invocation) (depth : Nat) (stack : List String) (tracePrefix : String) :
    (t.visit call depth stack tracePrefix).detectedCycles =
      t.detectedCycles ++ (cycleOf (stack ++ [call.contractId])).toList := by
  rw [Traversal.visit,cycleOf_append]
  by_cases active : call.contractId ∈ stack
  · simp [active]
  · simp [active]

theorem visit_depth_le_iff (t : Traversal) (call : Invocation) (depth : Nat) (stack : List String) (tracePrefix : String)
    (n : Nat) :
    (t.visit call depth stack tracePrefix).maxDepthReached ≤ n ↔ t.maxDepthReached ≤ n ∧ depth ≤ n := by
  rw [Traversal.visit]
  split
  · next deeper => exact ⟨fun le => ⟨deeper.le.trans le,le⟩,And.right⟩
  · next high => exact ⟨fun le => ⟨le,(not_lt.mp high).trans le⟩,And.left⟩

@[simp] theorem chains_nil : chains [] = [] := by simp [chains]

@[simp] theorem chains_cons (call : Invocation) (subInvocations rest : List SorobanInvocationNode) :
    chains (.node call subInvocations :: rest) =
      [call.contractId] :: (chains subInvocations).map (call.contractId :: ·) ++ chains rest := by
  simp [chains,Function.comp_def]

section Walk
variable {nodes : List SorobanInvocationNode}

/-- Every call of the forest names its contract. -/
def Named (nodes : List SorobanInvocationNode) : Prop := ∀ chain ∈ chains nodes, "" ∉ chain

theorem named_cons_iff {call : Invocation} {subInvocations rest : List SorobanInvocationNode} :
    Named (.node call subInvocations :: rest) ↔ call.contractId ≠ "" ∧ Named subInvocations ∧ Named rest := by
  rw [Named,chains_cons,List.cons_append,List.forall_mem_cons,List.forall_mem_append,List.forall_mem_map]
  simp only [List.mem_cons,List.not_mem_nil,or_false,not_or]
  constructor
  · rintro ⟨own,below,beside⟩
    exact ⟨Ne.symm own,fun chain listed => (below chain listed).2,beside⟩
  · rintro ⟨own,below,beside⟩
    exact ⟨Ne.symm own,fun chain listed => ⟨Ne.symm own,below chain listed⟩,beside⟩

theorem traverseAll_cycles (named : Named nodes) (depth : Nat) (stack : List String) (tracePrefix : String) (t : Traversal) :
    (traverseAll nodes depth stack tracePrefix t).detectedCycles =
      t.detectedCycles ++ (chains nodes).filterMap fun chain => cycleOf (stack ++ chain) := by
  induction nodes using forest_rec generalizing depth stack tracePrefix t with
  | nil => simp [traverseAll]
  | cons call subInvocations rest below beside =>
    obtain ⟨own,namedBelow,namedBeside⟩ := named_cons_iff.mp named
    rw [traverseAll,traverse,if_neg own,beside namedBeside,below namedBelow,visit_cycles,chains_cons]
    have further : (fun chain => cycleOf (stack ++ [call.contractId] ++ chain)) =
        fun chain => cycleOf (stack ++ call.contractId :: chain) := by
      funext chain
      rw [List.append_assoc,List.singleton_append]
    rw [further,List.cons_append,List.filterMap_cons,List.filterMap_append,List.filterMap_map]
    cases cycleOf (stack ++ [call.contractId]) with
    | none => simp
    | some cycle => simp

theorem traverseAll_depth (named : Named nodes) (depth : Nat) (stack : List String) (tracePrefix : String) (t : Traversal)
    (n : Nat) :
    (traverseAll nodes (depth + 1) stack tracePrefix t).maxDepthReached ≤ n ↔
      t.maxDepthReached ≤ n ∧ ∀ chain ∈ chains nodes, depth + chain.length ≤ n := by
  induction nodes using forest_rec generalizing depth stack tracePrefix t with
  | nil => simp [traverseAll]
  | cons call subInvocations rest below beside =>
    obtain ⟨own,namedBelow,namedBeside⟩ := named_cons_iff.mp named
    rw [traverseAll,traverse,if_neg own,beside namedBeside,below namedBelow,visit_depth_le_iff,chains_cons]
    simp only [List.cons_append,List.forall_mem_cons,List.forall_mem_append,List.forall_mem_map,List.length_cons,
      List.length_nil,Nat.zero_add]
    constructor
    · rintro ⟨⟨⟨before,here⟩,deeper⟩,others⟩
      exact ⟨before,here,fun chain listed => by have := deeper chain listed; omega,others⟩
    · rintro ⟨before,here,deeper,others⟩
      exact ⟨⟨⟨before,here⟩,fun chain listed => by have := deeper chain listed; omega⟩,others⟩

theorem walk_cycles (named : Named nodes) : (walk nodes).detectedCycles = (chains nodes).filterMap cycleOf := by
  rw [walk,traverseAll_cycles named]
  simp

theorem walk_depth (named : Named nodes) : (walk nodes).maxDepthReached = heightAll nodes := by
  refine eq_of_forall_ge_iff fun n => ?_
  rw [walk,traverseAll_depth named,height_le_iff]
  simp [chains]

end Walk

theorem forall₂_cycles (all : List (List String)) :
    List.Forall₂ Closes (all.filter fun chain => (cycleOf chain).isSome) (all.filterMap cycleOf) := by
  induction all with
  | nil => exact .nil
  | cons chain rest ih =>
    rcases cycleOf_spec chain with ⟨cycle,is,_,closes⟩ | ⟨is,_⟩
    · rw [List.filter_cons_of_pos (by rw [is]; rfl),List.filterMap_cons_some is]
      exact .cons closes ih
    · rw [List.filter_cons_of_neg (by rw [is]; simp),List.filterMap_cons_none is]
      exact ih

theorem reenters_iff (chain : List String) : (cycleOf chain).isSome ↔ Reenters chain := by
  rcases cycleOf_spec chain with ⟨cycle,is,reenters,_⟩ | ⟨is,safe⟩
  · simp [is,reenters]
  · simp [is,safe]

instance (chain : List String) : Decidable (Reenters chain) := decidable_of_iff _ (reenters_iff chain)

theorem not_reenters_of_nodup {chain : List String} (distinct : chain.Nodup) : ¬ Reenters chain := by
  rintro ⟨above,own,rfl,listed⟩
  exact (List.nodup_append.mp distinct).2.2 own listed own (List.mem_singleton_self own) rfl

theorem exists_longest {roots : List SorobanInvocationNode} (some_ : roots ≠ []) :
    ∃ chain ∈ chains roots, chain.length = heightAll roots := by
  have positive : heightAll roots ≠ 0 := by
    cases roots with
    | nil => exact absurd rfl some_
    | cons node rest =>
      obtain ⟨call,subInvocations⟩ := node
      rw [heightAll_cons]
      omega
  obtain ⟨n,height⟩ := Nat.exists_eq_succ_of_ne_zero positive
  obtain ⟨path,listed,long⟩ := (lt_height_iff roots n).mp (by omega)
  have most := (height_le_iff roots (heightAll roots)).mp (le_refl _) path listed
  refine ⟨path.map Invocation.contractId,List.mem_map_of_mem listed,?_⟩
  rw [List.length_map]
  omega

theorem length_le_height {roots : List SorobanInvocationNode} {chain : List String} (listed : chain ∈ chains roots) :
    chain.length ≤ heightAll roots := by
  obtain ⟨path,isPath,rfl⟩ := List.mem_map.mp listed
  rw [List.length_map]
  exact (height_le_iff roots _).mp (le_refl _) path isPath

theorem lt_height_iff_chain {roots : List SorobanInvocationNode} {limit : ℚ} (sensible : roots = [] → 0 ≤ limit) :
    limit < (heightAll roots : ℚ) ↔ ∃ chain ∈ chains roots, limit < chain.length := by
  constructor
  · intro exceeds
    by_cases empty : roots = []
    · subst empty
      exact absurd (sensible rfl) (not_le.mpr (by simpa using exceeds))
    · obtain ⟨chain,listed,long⟩ := exists_longest empty
      exact ⟨chain,listed,by rw [long]; exact exceeds⟩
  · rintro ⟨chain,listed,exceeds⟩
    exact exceeds.trans_le (by exact_mod_cast length_le_height listed)

/-- In a forest of named calls a re-entrancy is reported just if some call has one of its contract above it; there is one cycle for each
    such call, in preorder, from the outermost call of the contract down to it; the depth is the height, which is excessive just if some
    chain of calls is longer than the limit (without any call, if the limit is below zero); and where no contract calls itself through
    others, whatever its siblings are, nothing is reported. -/
theorem analysis_exact (text : ℚ → String) (defaultMaxDepth : ℚ) (roots : List SorobanInvocationNode) (maxDepth : Option ℚ)
    (named : Named roots) :
    let result := analyzeCallTree text defaultMaxDepth roots maxDepth
    (result.hasReentrancy = true ↔ ∃ chain ∈ chains roots, Reenters chain) ∧
      List.Forall₂ Closes ((chains roots).filter fun chain => Reenters chain) result.detectedCycles ∧
      result.maxDepthReached = heightAll roots ∧
      ((roots = [] → 0 ≤ maxDepth.getD defaultMaxDepth) →
        (result.hasExcessiveDepth = true ↔ ∃ chain ∈ chains roots, maxDepth.getD defaultMaxDepth < chain.length)) ∧
      ((∀ chain ∈ chains roots, chain.Nodup) → result.hasReentrancy = false ∧ result.detectedCycles = []) := by
  intro result
  have cycles : result.detectedCycles = (chains roots).filterMap cycleOf := walk_cycles named
  have depth : result.maxDepthReached = heightAll roots := walk_depth named
  have reports : result.hasReentrancy = true ↔ ∃ chain ∈ chains roots, Reenters chain := by
    have counts : result.hasReentrancy = decide (0 < result.detectedCycles.length) := rfl
    rw [counts,decide_eq_true_iff,cycles,List.length_pos_iff_exists_mem]
    simp only [List.mem_filterMap,← reenters_iff,Option.isSome_iff_exists]
    exact ⟨fun ⟨cycle,chain,listed,is⟩ => ⟨chain,listed,cycle,is⟩,fun ⟨chain,listed,cycle,is⟩ => ⟨cycle,chain,listed,is⟩⟩
  refine ⟨reports,?_,depth,?_,?_⟩
  · have same : (chains roots).filter (fun chain => decide (Reenters chain)) =
        (chains roots).filter fun chain => (cycleOf chain).isSome :=
      List.filter_congr fun chain _ => by rw [Bool.eq_iff_iff,decide_eq_true_iff,reenters_iff]
    rw [same,cycles]
    exact forall₂_cycles _
  · intro sensible
    have exceeds : result.hasExcessiveDepth = decide (maxDepth.getD defaultMaxDepth < (result.maxDepthReached : ℚ)) := rfl
    rw [exceeds,decide_eq_true_iff,depth]
    exact lt_height_iff_chain sensible
  · intro distinct
    have none_ : ¬ ∃ chain ∈ chains roots, Reenters chain := fun ⟨chain,listed,reenters⟩ =>
      not_reenters_of_nodup (distinct chain listed) reenters
    refine ⟨Bool.eq_false_iff.mpr fun reported => none_ (reports.mp reported),?_⟩
    rw [cycles,List.filterMap_eq_nil_iff]
    intro chain listed
    by_contra cycle
    exact none_ ⟨chain,listed,(reenters_iff chain).mp (Option.isSome_iff_ne_none.mpr cycle)⟩

theorem analysis_exact_nested :
    let roots : List SorobanInvocationNode :=
      [.node ⟨"POOL",none⟩ [.node ⟨"USER",none⟩ [.node ⟨"POOL",none⟩ []],.node ⟨"USER",none⟩ []]]
    let result := analyzeCallTree (fun _ => "8") 8 roots none
    result.hasReentrancy = true ∧ result.maxDepthReached = 3 ∧ result.hasExcessiveDepth = false := by
  intro roots result
  have named : Named roots := by
    intro chain listed
    simp only [roots,chains_cons,chains_nil,List.map_nil,List.append_nil,List.map_cons,List.cons_append,List.nil_append,
      List.mem_cons,List.not_mem_nil,or_false] at listed
    rcases listed with rfl | rfl | rfl | rfl <;> decide
  obtain ⟨reports,_,depth,excess,_⟩ := analysis_exact (fun _ => "8") 8 roots none named
  have height : heightAll roots = 3 := by simp [roots]
  refine ⟨reports.mpr ⟨["POOL","USER","POOL"],by simp [roots],["POOL","USER"],"POOL",rfl,by simp⟩,depth.trans height,?_⟩
  rw [Bool.eq_false_iff,ne_eq,excess (fun none_ => absurd none_ (List.cons_ne_nil _ _))]
  rintro ⟨chain,listed,long⟩
  have le : chain.length ≤ 3 := height ▸ length_le_height listed
  have bound : (chain.length : ℚ) ≤ 3 := by exact_mod_cast le
  have contradiction : (8 : ℚ) < 3 := long.trans_le bound
  norm_num at contradiction

end StellarAlerts.ReentrancySentinel
