import StellarAlerts.HexText
import StellarAlerts.PairedLayers
import StellarAlerts.Sha256

/-!
The Merkle trees of the shared package: leaves and inner nodes hashed under different
first bytes, trees built layer by layer with an odd node paired with itself, inclusion
proofs folded up to a root.
-/
namespace StellarAlerts.Merkle
open Sha256 HexText PairedLayers

inductive MerkleProofDirection where
  | left
  | right
deriving DecidableEq, Repr

structure MerkleProofStep where
  siblingHash : String
  direction : MerkleProofDirection
deriving DecidableEq, Repr

structure MerkleProof where
  leafHash : String
  path : List MerkleProofStep
deriving DecidableEq, Repr

structure MerkleTree where
  root : String
  layers : List (List String)
deriving DecidableEq, Repr

def leafMessage (data : List UInt8) : List UInt8 := 0x00 :: data
def nodeMessage (left right : List UInt8) : List UInt8 := 0x01 :: (left ++ right)
def hashMerkleLeaf (data : List UInt8) : String := toHex (sha256 (leafMessage data))
def hashMerkleNode (left right : List UInt8) : String := toHex (sha256 (nodeMessage left right))
def isHex64 (value : String) : Bool := isHex 64 value

/-- The parent of the running hash and its sibling. -/
def MerkleProofStep.parentHex (step : MerkleProofStep) (current : List UInt8) : String :=
  let sibling := fromHex step.siblingHash
  match step.direction with
  | .left => hashMerkleNode sibling current
  | .right => hashMerkleNode current sibling

/-- The loop of `computeMerkleRoot`. -/
def foldPath : List UInt8 → List MerkleProofStep → Except String (List UInt8)
  | current, [] => .ok current
  | current, step :: rest =>
    if isHex64 step.siblingHash then foldPath (fromHex (step.parentHex current)) rest
    else .error s!"Invalid sibling hash in proof path: \"{step.siblingHash}\""

def computeMerkleRoot (leafHash : String) (path : List MerkleProofStep) : Except String String :=
  if isHex64 leafHash then (foldPath (fromHex leafHash) path).map toHex
  else .error s!"Invalid leaf hash: expected 32-byte hex, got \"{leafHash}\""

def verifyMerkleProof (proof : MerkleProof) (expectedRoot : String) : Bool :=
  if !isHex64 expectedRoot then false
  else if !isHex64 proof.leafHash then false
  else
    match computeMerkleRoot proof.leafHash proof.path with
    | .ok computedRoot => toLowerCase computedRoot == toLowerCase expectedRoot
    | .error _ => false

/-- The layer above; an odd node is paired with itself. -/
def nextLayer (currentLayer : List String) : List String :=
  (pairs currentLayer).map fun (left,right) => hashMerkleNode (fromHex left) (fromHex right)

/-- The layers that `buildMerkleTree` makes, the leaf hashes first. -/
def layersOf (leaves : List (List UInt8)) : List (List String) :=
  layers nextLayer leaves.length (leaves.map hashMerkleLeaf)

def buildMerkleTree (leaves : List (List UInt8)) : Except String MerkleTree :=
  if leaves.length = 0 then .error "Cannot build a Merkle tree from zero leaves"
  else .ok ⟨((layersOf leaves).getLastD []).headD "",layersOf leaves⟩

def treeMessages (leaves : List (List UInt8)) : List (List UInt8) :=
  leaves.map leafMessage ++
    (layersOf leaves).dropLast.flatMap fun layer =>
      (pairs layer).map fun (left,right) => nodeMessage (fromHex left) (fromHex right)

/-- The message of the parent of the running hash and its sibling. -/
def MerkleProofStep.message (step : MerkleProofStep) (current : List UInt8) : List UInt8 :=
  let sibling := fromHex step.siblingHash
  match step.direction with
  | .left => nodeMessage sibling current
  | .right => nodeMessage current sibling

def pathMessages : List UInt8 → List MerkleProofStep → List (List UInt8)
  | _, [] => []
  | current, step :: rest => step.message current :: pathMessages (sha256 (step.message current)) rest

def proofMessages (d : List UInt8) (path : List MerkleProofStep) : List (List UInt8) :=
  leafMessage d :: pathMessages (sha256 (leafMessage d)) path

theorem collisionFree_tail {tree rest : List (List UInt8)} {m : List UInt8} (free : CollisionFree (tree ++ m :: rest)) :
    CollisionFree (tree ++ rest) := by
  apply collisionFree_mono _ free
  intro other listed
  rw [List.mem_append] at listed ⊢
  exact listed.imp_right (List.mem_cons_of_mem m)

theorem parentHex_eq (step : MerkleProofStep) (current : List UInt8) :
    step.parentHex current = toHex (sha256 (step.message current)) := by
  unfold MerkleProofStep.parentHex MerkleProofStep.message
  cases step.direction <;> rfl

theorem nodeMessage_inj {l r l' r' : List UInt8} (same : nodeMessage l r = nodeMessage l' r')
    (width : l.length = l'.length) : l = l' ∧ r = r' := by
  injection same with _ halves
  exact List.append_inj halves width

theorem leaf_ne_node (data left right : List UInt8) : leafMessage data ≠ nodeMessage left right := by
  simp [leafMessage,nodeMessage]

theorem current_of_message {step : MerkleProofStep} {current left right : List UInt8}
    (sibling : isHex64 step.siblingHash = true) (width : current.length = 32) (leftWidth : left.length = 32)
    (same : step.message current = nodeMessage left right) : current = left ∨ current = right := by
  have siblingWidth : (fromHex step.siblingHash).length = 32 := fromHex_length (n := 32) sibling
  unfold MerkleProofStep.message at same
  cases side : step.direction with
  | left =>
    simp only [side] at same
    exact .inr (nodeMessage_inj same (by omega)).2
  | right =>
    simp only [side] at same
    exact .inl (nodeMessage_inj same (by omega)).1

def IsNode (leaves : List (List UInt8)) (hash : List UInt8) : Prop := ∃ layer ∈ layersOf leaves, toHex hash ∈ layer

theorem layer_digest {leaves : List (List UInt8)} {layer : List String} (listed : layer ∈ layersOf leaves) {hash : String}
    (member : hash ∈ layer) : ∃ message, hash = toHex (sha256 message) := by
  rcases mem_layers listed member with first | ⟨lower,_,comes⟩
  · obtain ⟨data,_,rfl⟩ := List.mem_map.mp first
    exact ⟨leafMessage data,rfl⟩
  · obtain ⟨⟨left,right⟩,_,rfl⟩ := List.mem_map.mp comes
    exact ⟨nodeMessage (fromHex left) (fromHex right),rfl⟩

theorem node_cases {leaves : List (List UInt8)} {hash : List UInt8} (node : IsNode leaves hash) :
    (∃ data ∈ leaves, hash = sha256 (leafMessage data)) ∨
      ∃ left right, nodeMessage left right ∈ treeMessages leaves ∧ hash = sha256 (nodeMessage left right) ∧
        left.length = 32 ∧ IsNode leaves left ∧ IsNode leaves right := by
  obtain ⟨layer,listed,member⟩ := node
  rcases mem_layers listed member with first | ⟨lower,below,comes⟩
  · obtain ⟨data,leaf,same⟩ := List.mem_map.mp first
    exact .inl ⟨data,leaf,toHex_injective same.symm⟩
  · obtain ⟨⟨leftHex,rightHex⟩,paired,same⟩ := List.mem_map.mp comes
    have inside := List.dropLast_subset _ below
    obtain ⟨inLeft,inRight⟩ := mem_pairs paired
    obtain ⟨leftOf,rfl⟩ := layer_digest inside inLeft
    obtain ⟨rightOf,rfl⟩ := layer_digest inside inRight
    have hashed : nodeMessage (sha256 leftOf) (sha256 rightOf) ∈ treeMessages leaves := by
      refine List.mem_append_right _ (List.mem_flatMap.mpr ⟨lower,below,?_⟩)
      exact List.mem_map.mpr ⟨_,paired,by simp⟩
    refine .inr ⟨sha256 leftOf,sha256 rightOf,hashed,?_,sha256_length _,⟨lower,inside,inLeft⟩,⟨lower,inside,inRight⟩⟩
    simp only [fromHex_toHex] at same
    exact toHex_injective same.symm

theorem leaf_hashed {leaves : List (List UInt8)} {data : List UInt8} (leaf : data ∈ leaves) :
    leafMessage data ∈ treeMessages leaves :=
  List.mem_append_left _ (List.mem_map.mpr ⟨data,leaf,rfl⟩)

variable {path : List MerkleProofStep}

theorem foldPath_node {leaves : List (List UInt8)} {current final : List UInt8}
    (free : CollisionFree (treeMessages leaves ++ pathMessages current path)) (width : current.length = 32)
    (folded : foldPath current path = .ok final) (node : IsNode leaves final) : IsNode leaves current := by
  induction path generalizing current with
  | nil =>
    injection folded with same
    exact same ▸ node
  | cons step rest ih =>
    unfold foldPath at folded
    split at folded
    next sibling =>
      rw [parentHex_eq,fromHex_toHex] at folded
      have parent := ih (collisionFree_tail free) (sha256_length _) folded
      have hashedHere : step.message current ∈ treeMessages leaves ++ pathMessages current (step :: rest) := by
        simp [pathMessages]
      -- The parent is no leaf, for leaves are hashed under another first byte.
      rcases node_cases parent with ⟨data,leaf,same⟩ | ⟨left,right,hashed,same,leftWidth,inLeft,inRight⟩
      · have equal := free hashedHere (List.mem_append_left _ (leaf_hashed leaf)) same
        cases side : step.direction <;> simp [MerkleProofStep.message,side,leafMessage,nodeMessage] at equal
      · have equal := free hashedHere (List.mem_append_left _ hashed) same
        rcases current_of_message sibling width leftWidth equal with rfl | rfl
        · exact inLeft
        · exact inRight
    next => cases folded

theorem buildMerkleTree_ok {leaves : List (List UInt8)} (some_ : leaves ≠ []) :
    ∃ tree, buildMerkleTree leaves = .ok tree ∧ ∃ message, tree.root = toHex (sha256 message) ∧
      IsNode leaves (sha256 message) := by
  have halves : ∀ layer, (nextLayer layer).length = (layer.length + 1) / 2 := by
    intro layer
    simp [nextLayer,pairs_length]
  obtain ⟨top,topIs⟩ := 
    @layers_last _ nextLayer halves leaves.length (leaves.map hashMerkleLeaf) (by simpa using some_) (by simp)
  have listed : [top] ∈ layersOf leaves := List.mem_of_getLast? topIs
  obtain ⟨message,rfl⟩ := layer_digest listed (List.mem_singleton_self top)
  refine ⟨_,if_neg (by simpa using some_),message,?_,[toHex (sha256 message)],listed,List.mem_singleton_self _⟩
  simp only [List.getLastD_eq_getLast?]
  rw [layersOf,topIs]
  rfl

theorem accepted_iff {leafHash : String} (hex : isHex64 leafHash = true) {digest : List UInt8} (width : digest.length = 32) :
    verifyMerkleProof ⟨leafHash,path⟩ (toHex digest) = true ↔ foldPath (fromHex leafHash) path = .ok digest := by
  have rootHex : isHex64 (toHex digest) = true := isHex_toHex (by omega)
  simp only [verifyMerkleProof,computeMerkleRoot,hex,rootHex,Bool.not_true,Bool.false_eq_true,↓reduceIte]
  cases foldPath (fromHex leafHash) path with
  | error text => simp [Except.map]
  | ok final =>
    simp only [Except.map,toLowerCase_toHex,beq_iff_eq,Except.ok.injEq]
    exact ⟨toHex_injective,congrArg toHex⟩

theorem accepted_iff_folded {d digest : List UInt8} (width : digest.length = 32) :
    verifyMerkleProof ⟨hashMerkleLeaf d,path⟩ (toHex digest) = true ↔
      foldPath (sha256 (leafMessage d)) path = .ok digest := by
  have leafHex : isHex64 (hashMerkleLeaf d) = true := isHex_toHex (by simp)
  rw [accepted_iff leafHex width,hashMerkleLeaf,fromHex_toHex]

/-- For every nonempty list of leaves there is a tree, and a proof of any length
    that is accepted against its root proves a datum of the list. -/
theorem verifyMerkleProof_member (leaves : List (List UInt8)) (some_ : leaves ≠ []) :
    ∃ tree, buildMerkleTree leaves = .ok tree ∧
      ∀ d path, CollisionFree (treeMessages leaves ++ proofMessages d path) →
        verifyMerkleProof ⟨hashMerkleLeaf d,path⟩ tree.root = true → d ∈ leaves := by
  obtain ⟨tree,built,message,rootIs,root⟩ := buildMerkleTree_ok some_
  refine ⟨tree,built,?_⟩
  intro d path free accepted
  rw [rootIs] at accepted
  have folded := (accepted_iff_folded (sha256_length _)).mp accepted
  have start := foldPath_node (collisionFree_tail free) (sha256_length _) folded root
  have hashed : leafMessage d ∈ treeMessages leaves ++ proofMessages d path := by simp [proofMessages]
  rcases node_cases start with ⟨data,leaf,same⟩ | ⟨left,right,inner,same,_⟩
  · have equal := free hashed (List.mem_append_left _ (leaf_hashed leaf)) same
    injection equal with _ dataIs
    exact dataIs ▸ leaf
  · exact absurd (free hashed (List.mem_append_left _ inner) same) (leaf_ne_node d left right)

theorem verifyMerkleProof_member_pair :
    CollisionFree (treeMessages [[1],[2]] ++ proofMessages [2] [⟨hashMerkleLeaf [1],.left⟩]) ∧
      (∃ tree, buildMerkleTree [[1],[2]] = .ok tree ∧
        verifyMerkleProof ⟨hashMerkleLeaf [2],[⟨hashMerkleLeaf [1],.left⟩]⟩ tree.root = true ∧
        [2] ∈ ([[1],[2]] : List (List UInt8))) := by
  have free : CollisionFree (treeMessages [[1],[2]] ++ proofMessages [2] [⟨hashMerkleLeaf [1],.left⟩]) := by
    refine @collisionFree_of_nodup _
      [leafMessage [1],leafMessage [2],nodeMessage (sha256 (leafMessage [1])) (sha256 (leafMessage [2]))] ?_ ?_
    · simp [treeMessages,proofMessages,pathMessages,layersOf,layers,pairs,nextLayer,MerkleProofStep.message,
        hashMerkleLeaf]
    · decide +kernel
  obtain ⟨tree,built,sound⟩ := verifyMerkleProof_member [[1],[2]] (by simp)
  have accepted : verifyMerkleProof ⟨hashMerkleLeaf [2],[⟨hashMerkleLeaf [1],.left⟩]⟩ tree.root = true := by
    have rootIs : tree.root = hashMerkleNode (sha256 (leafMessage [1])) (sha256 (leafMessage [2])) := by
      have same := Except.ok.inj built
      rw [← same]
      simp [layersOf,layers,pairs,nextLayer,hashMerkleLeaf]
    rw [rootIs,hashMerkleNode,accepted_iff_folded (sha256_length _)]
    simp [foldPath,parentHex_eq,MerkleProofStep.message,isHex64,isHex_toHex,hashMerkleLeaf]
  exact ⟨free,tree,built,accepted,sound [2] _ free accepted⟩

end StellarAlerts.Merkle
