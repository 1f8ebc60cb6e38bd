import StellarAlerts.MerkleProofs
import StellarAlerts.PaddedLayers

/-!
What the root of a tree commits to. An odd node is paired with itself at every layer, so
the root is that of the list of leaves filled up with repetitions (`paddedLeaves`): two
lists have one root exactly where they are filled up to the same list (`root_eq_iff`),
unless messages that were hashed collide.
-/
namespace StellarAlerts.Merkle
open Sha256 HexText PairedLayers

/-- The number of layers above the leaves. -/
def height (leaves : List (List UInt8)) : Nat := (layersOf leaves).length - 1

/-- The leaves with the repetitions that stand for the odd nodes. -/
def paddedLeaves (leaves : List (List UInt8)) : List (List UInt8) := pad (height leaves) leaves

/-- The parent of two nodes. -/
def parent (p : String × String) : String := hashMerkleNode (fromHex p.1) (fromHex p.2)

theorem nextLayer_eq : nextLayer = joined parent := rfl

/-- The layer `i` above the leaves. -/
def layerAt (leaves : List (List UInt8)) (i : Nat) : List String := nextLayer^[i] (leaves.map hashMerkleLeaf)

variable {i : Nat}

theorem layersOf_get {leaves : List (List UInt8)} (inside : i ≤ height leaves) :
    (layersOf leaves)[i]? = some (layerAt leaves i) := by
  have some_ : 0 < (layersOf leaves).length := List.length_pos_of_ne_nil (layers_ne_nil _ _)
  unfold height at inside
  exact layers_get (by rw [layersOf] at *; omega)

theorem layerAt_height {leaves : List (List UInt8)} (some_ : leaves ≠ []) :
    layerAt leaves (height leaves) = [rootOf leaves] := by
  have last := @layers_last _ nextLayer nextLayer_length leaves.length (leaves.map hashMerkleLeaf) (by simpa using some_)
    (by simp)
  obtain ⟨top,topIs⟩ := last
  have rootIs : rootOf leaves = top := by
    rw [rootOf,List.getLastD_eq_getLast?,layersOf,topIs]
    rfl
  have lastIs : (layersOf leaves)[height leaves]? = some [top] := by
    rw [height,← List.getLast?_eq_getElem?]
    exact topIs
  rw [layersOf_get (Nat.le_refl _)] at lastIs
  rw [Option.some.inj lastIs,rootIs]

theorem pair_hashed {leaves : List (List UInt8)} (below : i < height leaves) {p : String × String}
    (paired : p ∈ pairs (layerAt leaves i)) :
    ∃ l r, p = (toHex l,toHex r) ∧ l.length = 32 ∧ nodeMessage l r ∈ treeMessages leaves := by
  have digests : Digests (layerAt leaves i) := by
    cases i with
    | zero => exact digests_leaves leaves
    | succ i =>
      rw [layerAt,Function.iterate_succ_apply']
      exact digests_nextLayer _
  obtain ⟨inLeft,inRight⟩ := @mem_pairs _ _ p.1 p.2 paired
  obtain ⟨l,leftIs,leftWidth⟩ := digests _ inLeft
  obtain ⟨r,rightIs,_⟩ := digests _ inRight
  refine ⟨l,r,Prod.ext leftIs rightIs,leftWidth,?_⟩
  refine List.mem_append_right _ (List.mem_flatMap.mpr ⟨layerAt leaves i,?_,List.mem_map.mpr ⟨p,paired,?_⟩⟩)
  · apply List.mem_of_getElem? (i := i)
    rw [List.getElem?_dropLast,if_pos (show i < (layersOf leaves).length - 1 from below)]
    exact layersOf_get (by omega)
  · simp [leftIs,rightIs]

variable {xs ys : List (List UInt8)}

section
variable (free : CollisionFree (treeMessages xs ++ treeMessages ys))
include free

theorem parent_told {j : Nat} (belowX : i < height xs)
    (belowY : j < height ys) {p q : String × String} (first : p ∈ pairs (layerAt xs i)) (second : q ∈ pairs (layerAt ys j))
    (same : parent p = parent q) : p = q := by
  obtain ⟨l,r,rfl,leftWidth,hashed⟩ := pair_hashed belowX first
  obtain ⟨l',r',rfl,leftWidth',hashed'⟩ := pair_hashed belowY second
  simp only [parent,hashMerkleNode,fromHex_toHex] at same
  have messages := free (List.mem_append_left _ hashed) (List.mem_append_right _ hashed') (toHex_injective same)
  obtain ⟨rfl,rfl⟩ := nodeMessage_inj messages (by omega)
  rfl

theorem leaf_told {x y : List UInt8} (first : x ∈ xs)
    (second : y ∈ ys) (same : hashMerkleLeaf x = hashMerkleLeaf y) : x = y := by
  have messages := free (List.mem_append_left _ (leaf_hashed first)) (List.mem_append_right _ (leaf_hashed second))
    (toHex_injective same)
  injection messages

theorem leaf_not_parent {x : List UInt8} (leaf : x ∈ xs)
    {j : Nat} (below : j < height ys) {q : String × String} (paired : q ∈ pairs (layerAt ys j)) :
    hashMerkleLeaf x ≠ parent q := by
  obtain ⟨l,r,rfl,_,hashed⟩ := pair_hashed below paired
  intro same
  simp only [parent,hashMerkleNode,fromHex_toHex] at same
  have messages := free (List.mem_append_left _ (leaf_hashed leaf)) (List.mem_append_right _ hashed)
    (toHex_injective same)
  exact leaf_ne_node x l r messages

/-- Trees with one root: the higher one has the leaves of the lower one among its nodes
    only if it is not higher, for leaves and pairs are hashed apart. -/
theorem padded_of_root (someX : xs ≠ []) (someY : ys ≠ [])
    (lower : height xs ≤ height ys) (same : rootOf xs = rootOf ys) : paddedLeaves xs = paddedLeaves ys := by
  obtain ⟨extra,heightIs⟩ := Nat.exists_eq_add_of_le lower
  have tops : nextLayer^[height xs] (xs.map hashMerkleLeaf) = nextLayer^[height xs] (layerAt ys extra) := by
    have topX := layerAt_height someX
    have topY := layerAt_height someY
    rw [heightIs,layerAt,Function.iterate_add_apply] at topY
    rw [layerAt] at topX
    rw [topX,same,← topY]
    rfl
  have filled : pad (0 + height xs) (xs.map hashMerkleLeaf) = pad (0 + height xs) (layerAt ys extra) := by
    refine @pad_of_iterate _ parent 0 (height xs) _ _ ?_ tops
    intro i less p first q second
    rw [← nextLayer_eq,layerAt,← Function.iterate_add_apply] at second
    exact parent_told free less (by omega : i + extra < height ys) first second
  rw [Nat.zero_add,pad_map] at filled
  cases extra with
  | zero =>
    have leaves : pad (height xs) (layerAt ys 0) = (pad (height xs) ys).map hashMerkleLeaf := pad_map ..
    rw [leaves] at filled
    have equal := eq_of_map_eq (fun x first y second => leaf_told free (mem_pad first) (mem_pad second)) filled
    rw [paddedLeaves,paddedLeaves,equal,heightIs]
    rfl
  | succ extra =>
    -- The first leaf of the lower tree would have the hash of a pair of the higher one.
    obtain ⟨x,rest,xsAre⟩ := List.exists_cons_of_ne_nil someX
    have first : x ∈ pad (height xs) xs := (prefix_pad (height xs) xs).subset (by rw [xsAre]; simp)
    have hashed : hashMerkleLeaf x ∈ pad (height xs) (layerAt ys (extra + 1)) :=
      filled ▸ List.mem_map_of_mem first
    have above := mem_pad hashed
    rw [layerAt,Function.iterate_succ_apply'] at above
    obtain ⟨q,paired,parentIs⟩ := List.mem_map.mp above
    exact absurd parentIs.symm (leaf_not_parent free (mem_pad first) (by omega) paired)

end

theorem paddedLeaves_length {leaves : List (List UInt8)} (some_ : leaves ≠ []) :
    (paddedLeaves leaves).length = 2 ^ height leaves := by
  have top := congrArg List.length (layerAt_height some_)
  rw [layerAt,nextLayer_eq,iterate_length,List.length_map,List.length_singleton] at top
  rw [paddedLeaves,pad_length,top,Nat.mul_one]

theorem root_of_padded (someX : xs ≠ []) (someY : ys ≠ []) (same : paddedLeaves xs = paddedLeaves ys) :
    rootOf xs = rootOf ys := by
  have lengths := congrArg List.length same
  rw [paddedLeaves_length someX,paddedLeaves_length someY] at lengths
  have heights : height xs = height ys := Nat.pow_right_injective (Nat.le_refl 2) lengths
  have leaves : pad (height xs) (xs.map hashMerkleLeaf) = pad (height xs) (ys.map hashMerkleLeaf) := by
    rw [pad_map,pad_map]
    rw [paddedLeaves,paddedLeaves,← heights] at same
    rw [same]
  rw [← Nat.zero_add (height xs)] at leaves
  have tops := @iterate_of_pad _ parent 0 (height xs) _ _ leaves
  have topX := layerAt_height someX
  have topY := layerAt_height someY
  rw [← heights] at topY
  have equal : [rootOf xs] = [rootOf ys] := topX.symm.trans (Eq.trans tops topY)
  exact List.head_eq_of_cons_eq equal

/-- Two lists of leaves have one root where they are filled up to the same list. -/
theorem root_eq_iff (free : CollisionFree (treeMessages xs ++ treeMessages ys)) (someX : xs ≠ []) (someY : ys ≠ []) :
    rootOf xs = rootOf ys ↔ paddedLeaves xs = paddedLeaves ys := by
  refine ⟨?_,root_of_padded someX someY⟩
  intro same
  rcases Nat.le_total (height xs) (height ys) with lower | higher
  · exact padded_of_root free someX someY lower same
  · have swapped : CollisionFree (treeMessages ys ++ treeMessages xs) := by
      apply collisionFree_mono _ free
      intro message listed
      exact List.mem_append.mpr (List.mem_append.mp listed).symm
    exact (padded_of_root swapped someY someX higher same.symm).symm

/-- Lists of one length, and lists without repetition, are told apart by their roots. -/
theorem eq_of_root_eq (free : CollisionFree (treeMessages xs ++ treeMessages ys)) (someX : xs ≠ []) (someY : ys ≠ [])
    (same : rootOf xs = rootOf ys) (plain : xs.length = ys.length ∨ xs.Nodup ∧ ys.Nodup) : xs = ys := by
  have padded := (root_eq_iff free someX someY).mp same
  rcases plain with length | ⟨first,second⟩
  · exact eq_of_pad_length padded length
  · exact eq_of_pad_nodup padded first second

end StellarAlerts.Merkle
