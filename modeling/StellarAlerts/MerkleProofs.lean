import StellarAlerts.Merkle

/-!
The proofs read off a tree: at every layer below the last the sibling of the
running index, or the node itself where the layer ends on it, and the side it is
on. The path of a leaf folds up to the root of the tree
(`generateMerkleProof_complete`).
-/
namespace StellarAlerts.Merkle
open Sha256 HexText PairedLayers

/-- The step from the node at `index` of a layer to its parent. -/
def proofStep (layer : List String) (index : Nat) : MerkleProofStep :=
  let isRightNode := index % 2 == 1
  let siblingIndex := if isRightNode then index - 1 else index + 1
  -- The fallback is the odd last node, which is its own sibling.
  ⟨(layer[siblingIndex]?).getD (layer[index]?.getD ""),if isRightNode then .left else .right⟩

/-- The loop of `generateMerkleProof`. -/
def pathFrom : List (List String) → Nat → List MerkleProofStep
  | layer :: next :: rest, index => proofStep layer index :: pathFrom (next :: rest) (index / 2)
  | _, _ => []

def generateMerkleProof (tree : MerkleTree) (leafIndex : Int) : Except String (List MerkleProofStep) :=
  let leafCount := (tree.layers.headD []).length
  if leafIndex < 0 ∨ leafCount ≤ leafIndex then
    .error s!"leafIndex {leafIndex} out of range for a tree with {leafCount} leaves"
  else .ok (pathFrom tree.layers leafIndex.toNat)

def Digests (layer : List String) : Prop := ∀ hash ∈ layer, ∃ digest, hash = toHex digest ∧ digest.length = 32

theorem digests_nextLayer (layer : List String) : Digests (nextLayer layer) := by
  intro hash member
  obtain ⟨⟨left,right⟩,_,rfl⟩ := List.mem_map.mp member
  exact ⟨sha256 (nodeMessage (fromHex left) (fromHex right)),rfl,sha256_length _⟩

theorem digests_leaves (leaves : List (List UInt8)) : Digests (leaves.map hashMerkleLeaf) := by
  intro hash member
  obtain ⟨data,_,rfl⟩ := List.mem_map.mp member
  exact ⟨sha256 (leafMessage data),rfl,sha256_length _⟩

variable {layer : List String}

theorem digests_get (digests : Digests layer) {index : Nat} (inside : index < layer.length) :
    ∃ digest, layer[index]? = some (toHex digest) ∧ digest.length = 32 := by
  obtain ⟨digest,same,width⟩ := digests _ (List.getElem_mem inside)
  exact ⟨digest,by rw [List.getElem?_eq_getElem inside,same],width⟩

variable {current : List UInt8}

theorem proofStep_parent (digests : Digests layer) {index : Nat} (here : layer[index]? = some (toHex current)) :
    isHex64 (proofStep layer index).siblingHash = true ∧
      (nextLayer layer)[index / 2]? = some ((proofStep layer index).parentHex current) := by
  have inside : index < layer.length := (List.getElem?_eq_some_iff.mp here).1
  rcases Nat.mod_two_eq_zero_or_one index with even | odd
  · have twice : 2 * (index / 2) = index := by omega
    by_cases last : index + 1 < layer.length
    · obtain ⟨sibling,there,width⟩ := digests_get digests last
      refine ⟨by simp [proofStep,even,there,isHex64,isHex_toHex,width],?_⟩
      simp [nextLayer,pairs_get?,twice,here,there,proofStep,even,MerkleProofStep.parentHex]
    · have nothing : layer[index + 1]? = none := List.getElem?_eq_none (by omega)
      obtain ⟨digest,same,width⟩ := digests_get digests inside
      have itself : digest = current := toHex_injective (Option.some.inj (same.symm.trans here))
      refine ⟨by simp [proofStep,even,nothing,here,isHex64,isHex_toHex,← itself,width],?_⟩
      simp [nextLayer,pairs_get?,twice,here,nothing,proofStep,even,MerkleProofStep.parentHex]
  · have twice : 2 * (index / 2) = index - 1 := by omega
    have after : index - 1 + 1 = index := by omega
    obtain ⟨sibling,there,width⟩ := digests_get digests (by omega : index - 1 < layer.length)
    refine ⟨by simp [proofStep,odd,there,isHex64,isHex_toHex,width],?_⟩
    simp [nextLayer,pairs_get?,twice,after,here,there,proofStep,odd,MerkleProofStep.parentHex]

theorem nextLayer_length (layer : List String) : (nextLayer layer).length = (layer.length + 1) / 2 := by
  simp [nextLayer,pairs_length]

theorem pathFrom_cons {higher : List (List String)} (some_ : higher ≠ []) (index : Nat) :
    pathFrom (layer :: higher) index = proofStep layer index :: pathFrom higher (index / 2) := by
  obtain ⟨next,rest,rfl⟩ := List.exists_cons_of_ne_nil some_
  rfl

theorem pathFrom_length (all : List (List String)) (index : Nat) : (pathFrom all index).length = all.length - 1 := by
  induction all generalizing index with
  | nil => rfl
  | cons layer higher ih =>
    by_cases some_ : higher = []
    · simp [some_,pathFrom]
    · have positive : 0 < higher.length := List.length_pos_of_ne_nil some_
      rw [pathFrom_cons some_,List.length_cons,ih,List.length_cons]
      omega

theorem foldPath_pathFrom {fuel : Nat} {first : List String} (digests : Digests first) (enough : first.length ≤ fuel)
    {index : Nat} {current : List UInt8} (here : first[index]? = some (toHex current)) :
    ∃ top, (layers nextLayer fuel first).getLast? = some [toHex top] ∧ top.length = 32 ∧
      foldPath current (pathFrom (layers nextLayer fuel first) index) = .ok top := by
  have inside : index < first.length := (List.getElem?_eq_some_iff.mp here).1
  induction fuel generalizing first index current with
  | zero => omega
  | succ fuel ih =>
    unfold layers
    by_cases several : 1 < first.length
    · simp only [several,↓reduceIte]
      obtain ⟨sibling,above⟩ := proofStep_parent digests here
      rw [parentHex_eq] at above
      have shorter := nextLayer_length first
      obtain ⟨top,topIs,width,folded⟩ := ih (digests_nextLayer first) (by omega) above (by omega)
      have higher := @layers_ne_nil _ nextLayer fuel (nextLayer first)
      refine ⟨top,by rw [List.getLast?_cons_of_ne_nil higher,topIs],width,?_⟩
      rw [pathFrom_cons higher,foldPath,if_pos sibling,parentHex_eq,fromHex_toHex]
      exact folded
    · simp only [several,↓reduceIte]
      obtain ⟨only,rfl⟩ := List.length_eq_one_iff.mp (by omega : first.length = 1)
      have zero : index = 0 := by simp only [List.length_singleton] at inside; omega
      rw [zero] at here
      obtain ⟨digest,same,width⟩ := digests_get digests (by omega : 0 < [only].length)
      have itself : digest = current := toHex_injective (Option.some.inj (same.symm.trans here))
      exact ⟨current,by simpa using here,itself ▸ width,rfl⟩

theorem proofStep_message {index : Nat} (here : layer[index]? = some (toHex current)) :
    (proofStep layer index).message current ∈
      (pairs layer).map fun (left,right) => nodeMessage (fromHex left) (fromHex right) := by
  refine List.mem_map.mpr ?_
  have inside : index < layer.length := (List.getElem?_eq_some_iff.mp here).1
  rcases Nat.mod_two_eq_zero_or_one index with even | odd
  · have twice : 2 * (index / 2) = index := by omega
    refine ⟨(toHex current,layer[index + 1]?.getD (toHex current)),List.mem_of_getElem? (i := index / 2) ?_,?_⟩
    · rw [pairs_get?,twice,here]
      rfl
    · simp [proofStep,even,here,MerkleProofStep.message]
  · have twice : 2 * (index / 2) = index - 1 := by omega
    have after : index - 1 + 1 = index := by omega
    have there : layer[index - 1]? = some layer[index - 1] := List.getElem?_eq_getElem (by omega)
    refine ⟨(layer[index - 1],toHex current),List.mem_of_getElem? (i := index / 2) ?_,?_⟩
    · rw [pairs_get?,twice,there,after,here]
      rfl
    · simp [proofStep,odd,there,MerkleProofStep.message]

theorem pathMessages_pathFrom {fuel : Nat} {first : List String} (digests : Digests first) {index : Nat}
    (here : first[index]? = some (toHex current)) :
    ∀ m ∈ pathMessages current (pathFrom (layers nextLayer fuel first) index),
      m ∈ (layers nextLayer fuel first).dropLast.flatMap fun layer =>
        (pairs layer).map fun (left,right) => nodeMessage (fromHex left) (fromHex right) := by
  induction fuel generalizing first index current with
  | zero =>
    intro m listed
    cases listed
  | succ fuel ih =>
    unfold layers
    by_cases several : 1 < first.length
    · simp only [several,↓reduceIte]
      have higher := @layers_ne_nil _ nextLayer fuel (nextLayer first)
      obtain ⟨_,above⟩ := proofStep_parent digests here
      rw [parentHex_eq] at above
      intro m listed
      rw [pathFrom_cons higher,pathMessages,List.mem_cons] at listed
      rw [List.dropLast_cons_of_ne_nil higher,List.flatMap_cons,List.mem_append]
      rcases listed with rfl | later
      · exact .inl (proofStep_message here)
      · exact .inr (ih (digests_nextLayer first) above m later)
    · simp only [several,↓reduceIte]
      intro m listed
      cases listed

theorem layersOf_head (leaves : List (List UInt8)) : (layersOf leaves).headD [] = leaves.map hashMerkleLeaf := by
  unfold layersOf
  cases leaves.length with
  | zero => rfl
  | succ fuel =>
    unfold layers
    split
    · rfl
    · rfl

/-- The root that `buildMerkleTree` gives. -/
def rootOf (leaves : List (List UInt8)) : String := ((layersOf leaves).getLastD []).headD ""

theorem buildMerkleTree_eq {leaves : List (List UInt8)} (some_ : leaves ≠ []) :
    buildMerkleTree leaves = .ok ⟨rootOf leaves,layersOf leaves⟩ := if_neg (by simpa using some_)

variable {i : Nat}

theorem foldPath_root {leaves : List (List UInt8)} (inRange : i < leaves.length) :
    ∃ top, rootOf leaves = toHex top ∧ top.length = 32 ∧
      foldPath (sha256 (leafMessage leaves[i])) (pathFrom (layersOf leaves) i) = .ok top := by
  have here : (leaves.map hashMerkleLeaf)[i]? = some (toHex (sha256 (leafMessage leaves[i]))) := by
    rw [List.getElem?_map,List.getElem?_eq_getElem inRange]
    rfl
  have paired := @foldPath_pathFrom leaves.length _ (digests_leaves leaves) (by simp) _ _ here
  obtain ⟨top,topIs,width,folded⟩ := paired
  refine ⟨top,?_,width,folded⟩
  rw [rootOf,List.getLastD_eq_getLast?,layersOf,topIs]
  rfl

theorem node_path {leaves : List (List UInt8)} {hash : List UInt8} (node : IsNode leaves hash) :
    ∃ path top, rootOf leaves = toHex top ∧ top.length = 32 ∧ foldPath hash path = .ok top ∧
      ∀ m ∈ pathMessages hash path, m ∈ treeMessages leaves := by
  obtain ⟨layer,listed,member⟩ := node
  obtain ⟨index,here⟩ := List.mem_iff_getElem?.mp member
  obtain ⟨rest,lower,fits,splits⟩ := layers_from nextLayer_length (by simp) listed
  have digests : Digests layer := by
    intro other inLayer
    obtain ⟨message,rfl⟩ := layer_digest listed inLayer
    exact ⟨sha256 message,rfl,sha256_length _⟩
  have higher := @layers_ne_nil _ nextLayer rest layer
  obtain ⟨top,topIs,width,folded⟩ := foldPath_pathFrom digests fits here
  refine ⟨_,top,?_,width,folded,fun m hashed => ?_⟩
  · rw [rootOf,List.getLastD_eq_getLast?,layersOf,splits,List.getLast?_append_of_ne_nil _ higher,topIs]
    rfl
  · have below := pathMessages_pathFrom digests here m hashed
    refine List.mem_append_right _ ?_
    rw [layersOf,splits,List.dropLast_append_of_ne_nil higher,List.flatMap_append]
    exact List.mem_append_right _ below

theorem rootOf_node {leaves : List (List UInt8)} (some_ : leaves ≠ []) :
    ∃ message, rootOf leaves = toHex (sha256 message) ∧ IsNode leaves (sha256 message) := by
  obtain ⟨tree,built,message,rootIs,node⟩ := buildMerkleTree_ok some_
  rw [buildMerkleTree_eq some_] at built
  rw [← Except.ok.inj built] at rootIs
  exact ⟨message,rootIs,node⟩

theorem accepted_node_iff {leaves : List (List UInt8)} (some_ : leaves ≠ []) (free : CollisionFree (treeMessages leaves))
    {leafHash : String} :
    (∃ path, CollisionFree (treeMessages leaves ++ pathMessages (fromHex leafHash) path) ∧
      verifyMerkleProof ⟨leafHash,path⟩ (rootOf leaves) = true) ↔
      isHex64 leafHash = true ∧ IsNode leaves (fromHex leafHash) := by
  constructor
  · rintro ⟨path,freeThere,accepted⟩
    have hex : isHex64 leafHash = true := by
      by_contra other
      simp [verifyMerkleProof,other] at accepted
    obtain ⟨message,rootIs,root⟩ := rootOf_node some_
    rw [rootIs,accepted_iff hex (sha256_length _)] at accepted
    exact ⟨hex,foldPath_node freeThere (fromHex_length (n := 32) hex) accepted root⟩
  · rintro ⟨hex,node⟩
    obtain ⟨path,top,rootIs,width,folded,inTree⟩ := node_path node
    refine ⟨path,collisionFree_mono (List.append_subset.mpr ⟨List.Subset.refl _,inTree⟩) free,?_⟩
    rw [rootIs,accepted_iff hex width]
    exact folded

theorem path_computed {leaves : List (List UInt8)} (inRange : i < leaves.length) :
    computeMerkleRoot (hashMerkleLeaf leaves[i]) (pathFrom (layersOf leaves) i) = .ok (rootOf leaves) := by
  obtain ⟨top,rootIs,_,folded⟩ := foldPath_root inRange
  have leafHex : isHex64 (hashMerkleLeaf leaves[i]) = true := isHex_toHex (by simp)
  rw [computeMerkleRoot,if_pos leafHex,hashMerkleLeaf,fromHex_toHex,folded,rootIs]
  rfl

theorem path_accepted {leaves : List (List UInt8)} (inRange : i < leaves.length) :
    verifyMerkleProof ⟨hashMerkleLeaf leaves[i],pathFrom (layersOf leaves) i⟩ (rootOf leaves) = true := by
  obtain ⟨top,rootIs,width,folded⟩ := foldPath_root inRange
  rw [rootIs]
  exact (accepted_iff_folded width).mpr folded

theorem generateMerkleProof_inside {leaves : List (List UInt8)} (inRange : i < leaves.length) (root : String) :
    generateMerkleProof ⟨root,layersOf leaves⟩ i = .ok (pathFrom (layersOf leaves) i) := by
  have within : ¬ ((i : Int) < 0 ∨ ((leaves.length : Nat) : Int) ≤ i) := by omega
  simp only [generateMerkleProof,layersOf_head,List.length_map,if_neg within,Int.toNat_natCast]

/-- For every nonempty list of leaves there is a tree; the path of every leaf folds up to its root, has a step for every layer below the
    root and is accepted, and an index outside the list has no path. -/
theorem generateMerkleProof_complete (leaves : List (List UInt8)) (some_ : leaves ≠ []) :
    ∃ tree, buildMerkleTree leaves = .ok tree ∧
      (∀ (i : Nat) (_ : i < leaves.length), ∃ path, generateMerkleProof tree i = .ok path ∧
        computeMerkleRoot (hashMerkleLeaf leaves[i]) path = .ok tree.root ∧
        verifyMerkleProof ⟨hashMerkleLeaf leaves[i],path⟩ tree.root = true ∧
        path.length = tree.layers.length - 1) ∧
      ∀ i : Int, i < 0 ∨ leaves.length ≤ i →
        generateMerkleProof tree i = .error s!"leafIndex {i} out of range for a tree with {leaves.length} leaves" := by
  refine ⟨_,buildMerkleTree_eq some_,?_,?_⟩
  · intro i inRange
    exact ⟨_,generateMerkleProof_inside inRange _,path_computed inRange,path_accepted inRange,pathFrom_length _ _⟩
  · intro i outside
    simp only [generateMerkleProof,layersOf_head,List.length_map,if_pos outside]

theorem generateMerkleProof_complete_three :
    ∃ tree, buildMerkleTree [[1],[2],[3]] = .ok tree ∧ ∃ path, generateMerkleProof tree 2 = .ok path ∧
      computeMerkleRoot (hashMerkleLeaf [3]) path = .ok tree.root ∧ path.length = tree.layers.length - 1 := by
  obtain ⟨tree,built,complete,_⟩ := generateMerkleProof_complete [[1],[2],[3]] (by simp)
  obtain ⟨path,generated,computed,_,length⟩ := complete 2 (by simp)
  exact ⟨tree,built,path,generated,computed,length⟩

end StellarAlerts.Merkle
