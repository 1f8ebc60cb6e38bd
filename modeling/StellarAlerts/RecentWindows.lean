import Mathlib.Data.List.Nodup
import Mathlib.Data.List.Infix

/-!
Sets that remember the last items that were added and forget the oldest ones over their
capacity.
-/
namespace StellarAlerts.RecentWindows
universe u
variable {α : Type u}

def lastOnes (count : Nat) (items : List α) : List α := items.drop (items.length - count)

theorem lastOnes_length (count : Nat) (items : List α) : (lastOnes count items).length ≤ count := by
  rw [lastOnes,List.length_drop]
  omega

@[simp] theorem lastOnes_nil (count : Nat) : lastOnes count ([] : List α) = [] := by simp [lastOnes]

theorem lastOnes_short {count : Nat} {items : List α} (short : items.length ≤ count) : lastOnes count items = items := by
  have none : items.length - count = 0 := by omega
  rw [lastOnes,none,List.drop_zero]

theorem lastOnes_suffix (count : Nat) (items : List α) : lastOnes count items <:+ items := List.drop_suffix _ _
theorem mem_of_lastOnes {count : Nat} {items : List α} {a : α} (listed : a ∈ lastOnes count items) : a ∈ items :=
  (lastOnes_suffix count items).mem listed

theorem lastOnes_append_single (count : Nat) (items : List α) (a : α) :
    lastOnes count (lastOnes count items ++ [a]) = lastOnes count (items ++ [a]) := by
  by_cases short : items.length ≤ count
  · rw [lastOnes_short short]
  · have drops : items.length - count + (count + 1 - count) = items.length + 1 - count := by omega
    have kept : (items.drop (items.length - count)).length = count := by rw [List.length_drop]; omega
    have whole : items.drop (items.length - count) ++ [a] = (items ++ [a]).drop (items.length - count) := by
      rw [List.drop_append_of_le_length (by omega)]
    unfold lastOnes
    rw [List.length_append,kept,List.length_append,whole,List.drop_drop,List.length_singleton,drops]

theorem mem_lastOnes_append {count : Nat} {items : List α} {a : α} (before : List α) (listed : a ∈ lastOnes count items) :
    a ∈ lastOnes count (before ++ items) := by
  by_cases short : items.length ≤ count
  · have fewer : (before ++ items).length - count ≤ before.length := by rw [List.length_append]; omega
    rw [lastOnes,List.drop_append_of_le_length fewer]
    exact List.mem_append_right _ (mem_of_lastOnes listed)
  · have drops : (before ++ items).length - count = before.length + (items.length - count) := by
      rw [List.length_append]
      omega
    rw [lastOnes,drops,List.drop_append]
    exact List.mem_append_right _ (by simpa [lastOnes] using listed)

theorem map_lastOnes {β : Type*} (f : α → β) (count : Nat) (items : List α) :
    (lastOnes count items).map f = lastOnes count (items.map f) := by
  simp [lastOnes,List.map_drop]

section Recent

/-- The items in the order of their addition. -/
structure Recent (α : Type u) (capacity : Nat) where
  items : List α
  nodup : items.Nodup
  short : items.length ≤ capacity

variable {capacity : Nat}

def Recent.empty : Recent α capacity := ⟨[],List.nodup_nil,Nat.zero_le _⟩
theorem empty_items : (Recent.empty : Recent α capacity).items = lastOnes capacity [] := (lastOnes_nil capacity).symm

variable [DecidableEq α]

def Recent.has (s : Recent α capacity) (a : α) : Bool := decide (a ∈ s.items)

/-- The items without an older place of the new one, then it, then without the oldest over the capacity. -/
def Recent.add (s : Recent α capacity) (a : α) : Recent α capacity where
  items := lastOnes capacity (s.items.erase a ++ [a])
  nodup := by
    have fresh : a ∉ s.items.erase a := fun listed => (List.Nodup.mem_erase_iff s.nodup).mp listed |>.1 rfl
    have all : (s.items.erase a ++ [a]).Nodup := by
      rw [List.nodup_append]
      refine ⟨s.nodup.erase a,List.nodup_singleton a,?_⟩
      rintro b listed c single rfl
      rw [List.mem_singleton] at single
      exact fresh (single ▸ listed)
    exact all.sublist (lastOnes_suffix _ _).sublist
  short := lastOnes_length _ _

theorem add_items {s : Recent α capacity} {a : α} {all : List α} (holds : s.items = lastOnes capacity all)
    (fresh : a ∉ s.items) : (s.add a).items = lastOnes capacity (all ++ [a]) := by
  show lastOnes capacity (s.items.erase a ++ [a]) = _
  rw [List.erase_of_not_mem fresh,holds,lastOnes_append_single]

end Recent

end StellarAlerts.RecentWindows
