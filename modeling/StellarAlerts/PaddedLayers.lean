import StellarAlerts.PairedLayers
import Mathlib.Algebra.Group.Nat.Defs
import Mathlib.Data.List.Infix

/-!
What the last layer of a tree says about the first. Pairing a last element with
itself, layer after layer, is pairing the elements of a longer list, the first
layer filled up with repetitions (`pad`). Where pairs are told apart by what they
become, two trees of one height with the same top have first layers that are the
same once filled up (`pad_of_iterate`), and a list of different elements is all
there is before the repetitions (`eq_of_pad_nodup`).
-/
namespace StellarAlerts.PairedLayers
universe u v

/-- The members of the pairs, one after the other. -/
def unpaired {α : Type u} (paired : List (α × α)) : List α := paired.flatMap fun p => [p.1,p.2]

/-- The list with the repetitions that `height` rounds of pairing add. -/
def pad : Nat → {α : Type u} → List α → List α
  | 0, _, list => list
  | height + 1, _, list => unpaired (pad height (pairs list))

variable {α : Type u} {β : Type v}

theorem unpaired_injective {a b : List (α × α)} (same : unpaired a = unpaired b) : a = b := by
  induction a generalizing b with
  | nil =>
    cases b with
    | nil => rfl
    | cons q rest => simp [unpaired] at same
  | cons p rest ih =>
    cases b with
    | nil => simp [unpaired] at same
    | cons q others =>
      simp only [unpaired,List.flatMap_cons,List.cons_append,List.nil_append,List.cons.injEq] at same
      obtain ⟨left,right,later⟩ := same
      rw [ih later,Prod.ext left right]

theorem pairs_map (f : α → β) (list : List α) : pairs (list.map f) = (pairs list).map (Prod.map f f) := by
  induction list using pairs.induct with
  | case1 left right rest ih => simp [pairs,ih]
  | case2 left => simp [pairs]
  | case3 => rfl

theorem unpaired_map (f : α → β) (paired : List (α × α)) :
    unpaired (paired.map (Prod.map f f)) = (unpaired paired).map f := by
  simp [unpaired,List.flatMap_map,List.map_flatMap]

theorem pad_map {α : Type u} {β : Type u} (height : Nat) (f : α → β) (list : List α) :
    pad height (list.map f) = (pad height list).map f := by
  induction height generalizing α β with
  | zero => rfl
  | succ height ih => rw [pad,pad,pairs_map,ih,unpaired_map]

theorem mem_unpaired {paired : List (α × α)} {x : α} (member : x ∈ unpaired paired) :
    ∃ p ∈ paired, x = p.1 ∨ x = p.2 := by
  obtain ⟨p,listed,either⟩ := List.mem_flatMap.mp member
  exact ⟨p,listed,by simpa using either⟩

theorem mem_pad {α : Type u} {height : Nat} {list : List α} {x : α} (member : x ∈ pad height list) : x ∈ list := by
  induction height generalizing α with
  | zero => exact member
  | succ height ih =>
    obtain ⟨p,listed,either⟩ := mem_unpaired member
    obtain ⟨left,right⟩ := mem_pairs (ih listed)
    rcases either with rfl | rfl
    · exact left
    · exact right

theorem unpaired_length (paired : List (α × α)) : (unpaired paired).length = 2 * paired.length := by
  simp [unpaired,Nat.mul_comm]

/-- The length of the layer above. -/
def halve (n : Nat) : Nat := (n + 1) / 2

theorem pad_length {α : Type u} (height : Nat) (list : List α) :
    (pad height list).length = 2 ^ height * halve^[height] list.length := by
  induction height generalizing α with
  | zero => simp [pad]
  | succ height ih =>
    rw [pad,unpaired_length,ih,pairs_length,Function.iterate_succ_apply,Nat.pow_succ,← Nat.mul_assoc,Nat.mul_comm 2]
    rfl

theorem prefix_unpaired_pairs (list : List α) : list <+: unpaired (pairs list) := by
  induction list using pairs.induct with
  | case1 left right rest ih => simpa [unpaired,pairs] using ih
  | case2 left => exact ⟨[left],rfl⟩
  | case3 => exact List.nil_prefix

theorem prefix_pad {α : Type u} (height : Nat) (list : List α) : list <+: pad height list := by
  induction height generalizing α with
  | zero => exact List.prefix_refl list
  | succ height ih =>
    obtain ⟨more,filled⟩ := ih (pairs list)
    refine (prefix_unpaired_pairs list).trans ?_
    rw [pad,← filled,unpaired,unpaired,List.flatMap_append]
    exact List.prefix_append ..

variable {a b : List α}

theorem eq_of_pad_length {height height' : Nat} (same : pad height a = pad height' b) (length : a.length = b.length) :
    a = b := by
  have first := prefix_pad height a
  rw [same] at first
  exact (List.prefix_of_prefix_length_le first (prefix_pad height' b) (by omega)).eq_of_length length

theorem prefix_nodup {height : Nat} {a b : List α} (nodup : b.Nodup) (before : a <+: b)
    (members : ∀ x ∈ b, x ∈ pad height a) : a = b := by
  obtain ⟨rest,rfl⟩ := before
  have nothing : rest = [] := by
    apply List.eq_nil_iff_forall_not_mem.mpr
    intro x listed
    have earlier : x ∈ a := mem_pad (members x (List.mem_append_right a listed))
    exact (List.nodup_append.mp nodup).2.2 x earlier x listed rfl
  simp [nothing]

/-- Lists of different elements that are filled up to the same one are the same. -/
theorem eq_of_pad_nodup {height height' : Nat} (same : pad height a = pad height' b) (first : a.Nodup) (second : b.Nodup) :
    a = b := by
  have beforeA := prefix_pad height a
  have beforeB := prefix_pad height' b
  have nested : a <+: b ∨ b <+: a := List.prefix_or_prefix_of_prefix (same ▸ beforeA) beforeB
  rcases nested with shorter | longer
  · exact @prefix_nodup _ height _ _ second shorter fun x listed => same ▸ beforeB.subset listed
  · exact (@prefix_nodup _ height' _ _ first longer fun x listed => same ▸ beforeA.subset listed).symm

theorem layers_get {above : List α → List α} {fuel : Nat} {first : List α} {i : Nat}
    (inside : i < (layers above fuel first).length) : (layers above fuel first)[i]? = some (above^[i] first) := by
  induction fuel generalizing first i with
  | zero =>
    have zero : i = 0 := by simp only [layers,List.length_singleton] at inside; omega
    simp [zero,layers]
  | succ fuel ih =>
    unfold layers at inside ⊢
    by_cases several : 1 < first.length
    · simp only [several,↓reduceIte] at inside ⊢
      cases i with
      | zero => rfl
      | succ i => exact ih (by simpa using inside)
    · simp only [several,↓reduceIte,List.length_singleton] at inside ⊢
      have zero : i = 0 := by omega
      simp [zero]

variable {node : α × α → α}

/-- The layer of what the pairs become. -/
def joined (node : α × α → α) (layer : List α) : List α := (pairs layer).map node

theorem iterate_length (rounds : Nat) (layer : List α) :
    ((joined node)^[rounds] layer).length = halve^[rounds] layer.length := by
  induction rounds generalizing layer with
  | zero => rfl
  | succ rounds ih =>
    rw [Function.iterate_succ_apply,Function.iterate_succ_apply,ih,joined,List.length_map,pairs_length]
    rfl

theorem pad_joined (height : Nat) (layer : List α) :
    pad height (joined node layer) = (pad height (pairs layer)).map node := pad_map ..

theorem eq_of_map_eq {f : α → β} (told : ∀ x ∈ a, ∀ y ∈ b, f x = f y → x = y) (same : a.map f = b.map f) : a = b := by
  induction a generalizing b with
  | nil => simpa using same.symm
  | cons x rest ih =>
    cases b with
    | nil => simp at same
    | cons y others =>
      simp only [List.map_cons,List.cons.injEq] at same
      have heads : x = y := told x (by simp) y (by simp) same.1
      have tails : rest = others := by
        apply ih _ same.2
        intro x' first y' second
        exact told x' (List.mem_cons_of_mem x first) y' (List.mem_cons_of_mem y second)
      rw [heads,tails]

theorem pad_of_joined {height : Nat} (told : ∀ p ∈ pairs a, ∀ q ∈ pairs b, node p = node q → p = q)
    (same : pad height (joined node a) = pad height (joined node b)) : pad (height + 1) a = pad (height + 1) b := by
  rw [pad_joined,pad_joined] at same
  have equal : pad height (pairs a) = pad height (pairs b) :=
    eq_of_map_eq (fun p first q second => told p (mem_pad first) q (mem_pad second)) same
  rw [pad,pad,equal]

theorem joined_of_pad {height : Nat} (same : pad (height + 1) a = pad (height + 1) b) :
    pad height (joined node a) = pad height (joined node b) := by
  rw [pad_joined,pad_joined,unpaired_injective same]

/-- From a layer down to the first, where on the way pairs are told apart. -/
theorem pad_of_iterate {height rounds : Nat} {a b : List α}
    (told : ∀ i < rounds, ∀ p ∈ pairs ((joined node)^[i] a), ∀ q ∈ pairs ((joined node)^[i] b), node p = node q → p = q)
    (same : pad height ((joined node)^[rounds] a) = pad height ((joined node)^[rounds] b)) :
    pad (height + rounds) a = pad (height + rounds) b := by
  induction rounds generalizing height with
  | zero => exact same
  | succ rounds ih =>
    rw [Function.iterate_succ_apply',Function.iterate_succ_apply'] at same
    have lower := ih (fun i less => told i (by omega)) (pad_of_joined (told rounds (by omega)) same)
    rwa [Nat.add_right_comm,Nat.add_assoc] at lower

/-- From the first layer up. -/
theorem iterate_of_pad {height rounds : Nat} {a b : List α} (same : pad (height + rounds) a = pad (height + rounds) b) :
    pad height ((joined node)^[rounds] a) = pad height ((joined node)^[rounds] b) := by
  induction rounds generalizing height with
  | zero => exact same
  | succ rounds ih =>
    rw [Function.iterate_succ_apply',Function.iterate_succ_apply']
    apply joined_of_pad
    apply ih
    rwa [Nat.add_right_comm,Nat.add_assoc]

end StellarAlerts.PairedLayers
