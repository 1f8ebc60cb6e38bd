import Mathlib.Data.List.Basic
import Mathlib.Order.Basic

/-!
Ordered trees with labels. A forest is read as the list of its paths from a root to a node, one
for each node in preorder; the height of a forest and a forest of which parts are hidden are
told by the paths (`height_le_iff`, `pathsAll_pruneAll`).
-/
namespace StellarAlerts.Trees
universe u v

inductive Rose (α : Type u) where
  | node (label : α) (children : List (Rose α))

variable {α : Type u} {β : Type v}

/-- The trees below a node come before the trees beside it. -/
theorem forest_rec {P : List (Rose α) → Prop} (nil : P [])
    (cons : ∀ label children rest, P children → P rest → P (.node label children :: rest)) :
    ∀ forest, P forest
  | [] => nil
  | .node label children :: rest => cons label children rest (forest_rec nil cons children) (forest_rec nil cons rest)

mutual
/-- The labels from the root down to each node, the nodes in preorder. -/
def Rose.paths : Rose α → List (List α)
  | .node label children => [label] :: (pathsAll children).map (label :: ·)
def pathsAll : List (Rose α) → List (List α)
  | [] => []
  | tree :: rest => tree.paths ++ pathsAll rest
end

mutual
/-- The number of nodes one above the other. -/
def Rose.height : Rose α → Nat
  | .node _ children => heightAll children + 1
def heightAll : List (Rose α) → Nat
  | [] => 0
  | tree :: rest => max tree.height (heightAll rest)
end

mutual
/-- A tree of which only some nodes are shown, and only below some. -/
def Rose.prune (shown opened : α → Bool) : Rose α → Option (Rose α)
  | .node label children =>
    if shown label then some (.node label (if opened label then pruneAll shown opened children else [])) else none
def pruneAll (shown opened : α → Bool) : List (Rose α) → List (Rose α)
  | [] => []
  | tree :: rest => (tree.prune shown opened).toList ++ pruneAll shown opened rest
end

mutual
def Rose.map (f : α → β) : Rose α → Rose β
  | .node label children => .node (f label) (mapAll f children)
def mapAll (f : α → β) : List (Rose α) → List (Rose β)
  | [] => []
  | tree :: rest => tree.map f :: mapAll f rest
end

/-- Every node of the path is shown, and what is below it, down to the last. -/
def seen (shown opened : α → Bool) (path : List α) : Bool := path.all shown && path.dropLast.all opened

@[simp] theorem pathsAll_nil : pathsAll ([] : List (Rose α)) = [] := by rw [pathsAll]

@[simp] theorem pathsAll_cons (label : α) (children rest : List (Rose α)) :
    pathsAll (.node label children :: rest) = [label] :: (pathsAll children).map (label :: ·) ++ pathsAll rest := by
  rw [pathsAll,Rose.paths]

@[simp] theorem heightAll_nil : heightAll ([] : List (Rose α)) = 0 := by rw [heightAll]

@[simp] theorem heightAll_cons (label : α) (children rest : List (Rose α)) :
    heightAll (.node label children :: rest) = max (heightAll children + 1) (heightAll rest) := by
  rw [heightAll,Rose.height]

@[simp] theorem mapAll_nil (f : α → β) : mapAll f [] = [] := by rw [mapAll]

@[simp] theorem mapAll_cons (f : α → β) (label : α) (children rest : List (Rose α)) :
    mapAll f (.node label children :: rest) = .node (f label) (mapAll f children) :: mapAll f rest := by
  rw [mapAll,Rose.map]

theorem ne_nil_of_mem {forest : List (Rose α)} {path : List α} (listed : path ∈ pathsAll forest) : path ≠ [] := by
  induction forest using forest_rec with
  | nil => simp at listed
  | cons label children rest _ ih =>
    simp only [pathsAll_cons,List.cons_append,List.mem_cons,List.mem_append,List.mem_map] at listed
    rcases listed with rfl | ⟨_,_,rfl⟩ | later
    · exact List.cons_ne_nil label []
    · exact List.cons_ne_nil label _
    · exact ih later

theorem height_le_iff (forest : List (Rose α)) (n : Nat) :
    heightAll forest ≤ n ↔ ∀ path ∈ pathsAll forest, path.length ≤ n := by
  induction forest using forest_rec generalizing n with
  | nil => simp
  | cons label children rest below beside =>
    rw [heightAll_cons,Nat.max_le,beside]
    simp only [pathsAll_cons,List.cons_append,List.mem_cons,List.mem_append,List.mem_map]
    constructor
    · rintro ⟨deep,others⟩ path (rfl | ⟨path,listed,rfl⟩ | listed)
      · simp only [List.length_singleton]
        omega
      · cases n with
        | zero => omega
        | succ n => exact Nat.succ_le_succ ((below n).mp (Nat.le_of_succ_le_succ deep) path listed)
      · exact others path listed
    · intro all
      refine ⟨?_,fun path listed => all path (.inr (.inr listed))⟩
      have first : 1 ≤ n := all [label] (.inl rfl)
      obtain ⟨m,rfl⟩ : ∃ m, n = m + 1 := ⟨n - 1,by omega⟩
      refine Nat.succ_le_succ ((below m).mpr fun path listed => ?_)
      exact Nat.le_of_succ_le_succ (all (label :: path) (.inr (.inl ⟨path,listed,rfl⟩)))

theorem lt_height_iff (forest : List (Rose α)) (n : Nat) :
    n < heightAll forest ↔ ∃ path ∈ pathsAll forest, n < path.length := by
  rw [← Nat.not_le,height_le_iff]
  simp

theorem pathsAll_mapAll (f : α → β) (forest : List (Rose α)) :
    pathsAll (mapAll f forest) = (pathsAll forest).map (List.map f) := by
  induction forest using forest_rec with
  | nil => simp
  | cons label children rest below beside => simp [below,beside,Function.comp_def]

theorem seen_cons_mem {shown opened : α → Bool} {label : α} {path : List α} (some_ : path ≠ []) :
    seen shown opened (label :: path) = (shown label && opened label && seen shown opened path) := by
  rw [seen,seen,List.dropLast_cons_of_ne_nil some_,List.all_cons,List.all_cons]
  cases shown label <;> cases opened label <;> simp

theorem pathsAll_pruneAll (shown opened : α → Bool) (forest : List (Rose α)) :
    pathsAll (pruneAll shown opened forest) = (pathsAll forest).filter (seen shown opened) := by
  induction forest using forest_rec with
  | nil => simp [pruneAll]
  | cons label children rest below beside =>
    have deeper : ((pathsAll children).map (label :: ·)).filter (seen shown opened) =
        ((pathsAll children).filter fun path => shown label && opened label && seen shown opened path).map (label :: ·) := by
      rw [List.filter_map]
      refine congrArg _ (List.filter_congr ?_)
      intro path listed
      exact seen_cons_mem (ne_nil_of_mem listed)
    rw [pruneAll,Rose.prune,pathsAll_cons,List.cons_append,List.filter_cons,List.filter_append,deeper,← beside]
    have own : seen shown opened [label] = shown label := by simp [seen]
    rw [own]
    cases shown label with
    | false => simp
    | true =>
      cases opened label with
      | false => simp
      | true => simp [below]

end StellarAlerts.Trees
