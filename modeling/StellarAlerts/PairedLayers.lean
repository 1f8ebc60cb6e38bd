import Mathlib.Data.List.Basic

/-!
Layers of a tree built from its leaves upwards. Every element above the leaves comes
from a pair of a lower layer (`mem_layers`), and the last layer has one element
(`layers_last`).
-/
namespace StellarAlerts.PairedLayers
universe u
variable {α : Type u}

/-- Neighbours side by side; a last one alone is paired with itself. -/
def pairs : List α → List (α × α)
  | left :: right :: rest => (left,right) :: pairs rest
  | [left] => [(left,left)]
  | [] => []

/-- The layer and those above it, as long as it has two elements or more. -/
def layers (above : List α → List α) : Nat → List α → List (List α)
  | 0, layer => [layer]
  | fuel + 1, layer => if 1 < layer.length then layer :: layers above fuel (above layer) else [layer]

theorem pairs_length (layer : List α) : (pairs layer).length = (layer.length + 1) / 2 := by
  induction layer using pairs.induct with
  | case1 left right rest ih =>
    simp only [pairs,List.length_cons,ih]
    omega
  | case2 left => simp [pairs]
  | case3 => simp [pairs]

theorem mem_pairs {layer : List α} {left right : α} (paired : (left,right) ∈ pairs layer) :
    left ∈ layer ∧ right ∈ layer := by
  induction layer using pairs.induct with
  | case1 first second rest ih =>
    rw [pairs,List.mem_cons] at paired
    rcases paired with same | later
    · injection same with leftIs rightIs
      simp [leftIs,rightIs]
    · obtain ⟨inLeft,inRight⟩ := ih later
      simp [inLeft,inRight]
  | case2 first => simpa [pairs] using paired
  | case3 => cases paired

theorem pairs_get? (layer : List α) (i : Nat) :
    (pairs layer)[i]? = layer[2 * i]?.map fun left => (left,layer[2 * i + 1]?.getD left) := by
  induction layer using pairs.induct generalizing i with
  | case1 first second rest ih =>
    cases i with
    | zero => simp [pairs]
    | succ i => simp [pairs,ih,Nat.mul_succ]
  | case2 first =>
    cases i with
    | zero => simp [pairs]
    | succ i => simp [pairs,Nat.mul_succ]
  | case3 => simp [pairs]

variable {above : List α → List α}

theorem layers_ne_nil (fuel : Nat) (layer : List α) : layers above fuel layer ≠ [] := by
  cases fuel with
  | zero => simp [layers]
  | succ fuel =>
    unfold layers
    split
    · simp
    · simp

theorem mem_layers {fuel : Nat} {first layer : List α} (listed : layer ∈ layers above fuel first) {x : α}
    (member : x ∈ layer) : x ∈ first ∨ ∃ lower ∈ (layers above fuel first).dropLast, x ∈ above lower := by
  induction fuel generalizing first with
  | zero =>
    rw [layers,List.mem_singleton] at listed
    exact .inl (listed ▸ member)
  | succ fuel ih =>
    unfold layers at listed ⊢
    by_cases several : 1 < first.length
    · simp only [several,↓reduceIte,List.mem_cons] at listed ⊢
      rw [List.dropLast_cons_of_ne_nil (layers_ne_nil fuel _)]
      rcases listed with rfl | higher
      · exact .inl member
      · rcases ih higher with fromFirst | ⟨lower,below,comes⟩
        · exact .inr ⟨first,List.mem_cons_self ..,fromFirst⟩
        · exact .inr ⟨lower,List.mem_cons_of_mem first below,comes⟩
    · simp only [several,↓reduceIte,List.mem_singleton] at listed
      exact .inl (listed ▸ member)

theorem layers_last (halves : ∀ layer : List α, (above layer).length = (layer.length + 1) / 2) {fuel : Nat}
    {first : List α} (some_ : first ≠ []) (enough : first.length ≤ fuel) :
    ∃ top, (layers above fuel first).getLast? = some [top] := by
  have positive : 0 < first.length := List.length_pos_of_ne_nil some_
  induction fuel generalizing first with
  | zero => omega
  | succ fuel ih =>
    unfold layers
    by_cases several : 1 < first.length
    · have next := halves first
      have higher := @ih (above first) (List.ne_nil_of_length_pos (by omega)) (by omega) (by omega)
      simp only [several,↓reduceIte]
      obtain ⟨top,topIs⟩ := higher
      exact ⟨top,by rw [List.getLast?_cons_of_ne_nil (layers_ne_nil fuel _),topIs]⟩
    · obtain ⟨top,rfl⟩ := List.length_eq_one_iff.mp (by omega : first.length = 1)
      exact ⟨top,by simp⟩

theorem layers_from (halves : ∀ layer : List α, (above layer).length = (layer.length + 1) / 2) {fuel : Nat}
    {first : List α} (enough : first.length ≤ fuel) {layer : List α} (listed : layer ∈ layers above fuel first) :
    ∃ rest lower, layer.length ≤ rest ∧ layers above fuel first = lower ++ layers above rest layer := by
  induction fuel generalizing first with
  | zero =>
    rw [layers,List.mem_singleton] at listed
    exact ⟨0,[],listed ▸ enough,by rw [listed,List.nil_append]⟩
  | succ fuel ih =>
    by_cases several : 1 < first.length
    · have all : layers above (fuel + 1) first = first :: layers above fuel (above first) := by simp [layers,several]
      rw [all,List.mem_cons] at listed
      rcases listed with rfl | higher
      · exact ⟨fuel + 1,[],enough,by rw [List.nil_append]⟩
      · have next := halves first
        obtain ⟨rest,lower,fits,splits⟩ := ih (by omega) higher
        exact ⟨rest,first :: lower,fits,by rw [all,splits,List.cons_append]⟩
    · have all : layers above (fuel + 1) first = [first] := by simp [layers,several]
      rw [all,List.mem_singleton] at listed
      exact ⟨fuel + 1,[],listed ▸ enough,by rw [listed,List.nil_append]⟩

end StellarAlerts.PairedLayers
