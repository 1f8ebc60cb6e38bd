import Mathlib.Data.List.Sort
import StellarAlerts.OrderedMaps

/-!
Queries of a table. Rows are ordered by a key that tells them apart; then a filter may
come before the ordering or behind it (`ordered_filter`), and the rows behind a row are
those of greater keys (`filter_behind`).
-/
namespace StellarAlerts.RowQueries
open OrderedMaps
universe u v

variable {Row : Type u} {K : Type v}

/-- How a database compares texts: by the keys that its collation gives them, and for
    `contains` without regard to case in a way of its own. -/
structure Database where
  collationKey : String → List Nat
  distinct : Function.Injective collationKey
  contains : String → String → Bool

/-- Texts compared by their code points, and searched without regard to the case of ASCII letters. -/
def byCodePoint : Database where
  collationKey text := text.toList.map Char.toNat
  distinct _ _ same := String.toList_injective (List.map_injective_iff.mpr (fun _ _ => Char.toNat_inj.mp) same)
  contains text q := (text.toList.map Char.toLower).tails.any (q.toList.map Char.toLower).isPrefixOf

/-- The conditions of a `where` object by their keys. -/
abbrev Where (Row : Type u) := OrderedMap String (Row → Bool)

def selects (w : Where Row) (row : Row) : Bool := w.entries.all fun condition => condition.2 row

variable {w : Where Row}

theorem selects_iff {row : Row} : selects w row = true ↔ ∀ k p, w.get k = some p → p row = true := by
  simp [selects,get_eq_some]

theorem selects_set (w : Where Row) (k : String) (p : Row → Bool) (row : Row) :
    selects (w.set k p) row = (selects (w.delete k) row && p row) := by
  rw [Bool.eq_iff_iff,Bool.and_eq_true,selects_iff,selects_iff]
  simp only [get_set,get_delete]
  constructor
  · intro all
    refine ⟨fun k' q found => ?_,all k p (if_pos rfl)⟩
    by_cases own : k' = k
    · rw [if_pos own] at found
      cases found
    · rw [if_neg own] at found
      exact all k' q (by rw [if_neg own,found])
  · rintro ⟨others,holds⟩ k' q found
    by_cases own : k' = k
    · rw [if_pos own] at found
      rw [← Option.some.inj found]
      exact holds
    · rw [if_neg own] at found
      exact others k' q (by rw [if_neg own,found])

variable {k : String}

theorem selects_set_new (free : w.get k = none) (p : Row → Bool) (row : Row) :
    selects (w.set k p) row = (selects w row && p row) := by
  rw [selects_set,delete_of_none free]

/-- Only the conditions under the keys count, not their order. -/
theorem selects_congr {w' : Where Row} (same : ∀ k, w.get k = w'.get k) (row : Row) : selects w row = selects w' row := by
  rw [Bool.eq_iff_iff,selects_iff,selects_iff]
  simp only [same]

/-- A condition that is there, apart from the others. -/
theorem selects_get {p : Row → Bool} (there : w.get k = some p) (row : Row) :
    selects w row = (selects (w.delete k) row && p row) := by
  rw [← selects_set]
  refine selects_congr (fun k' => ?_) row
  rw [get_set]
  by_cases own : k' = k
  · rw [if_pos own,own,there]
  · rw [if_neg own]

/-- One condition takes another's place under a new key. -/
theorem selects_moved {k' : String} (apart : k ≠ k') (free : w.get k = none) (p : Row → Bool) (row : Row) :
    selects ((w.set k p).delete k') row = (selects (w.delete k') row && p row) := by
  have free' : (w.delete k').get k = none := by rw [get_delete,if_neg apart,free]
  rw [← selects_set_new free']
  refine selects_congr (fun k'' => ?_) row
  rw [get_delete,get_set,get_set,get_delete]
  by_cases first : k'' = k
  · rw [if_pos first,if_neg (first ▸ apart),if_pos first]
  · rw [if_neg first,if_neg first]

def assign (w : Where Row) (k : String) : Option (Row → Bool) → Where Row
  | some p => w.set k p
  | none => w

theorem get_assign (w : Where Row) (k k' : String) (p : Option (Row → Bool)) :
    (assign w k p).get k' = if k' = k then p.or (w.get k') else w.get k' := by
  cases p with
  | none => simp [assign]
  | some p =>
    rw [assign,get_set]
    by_cases own : k' = k
    · simp [own]
    · simp [own]

theorem selects_assign (free : w.get k = none) (p : Option (Row → Bool)) (row : Row) :
    selects (assign w k p) row = (selects w row && p.all fun p => p row) := by
  cases p with
  | none => simp [assign]
  | some p => rw [assign,selects_set_new free,Option.all_some]

@[simp] theorem selects_empty (row : Row) : selects (OrderedMap.empty : Where Row) row = true := rfl
def Apart (key : Row → K) (rows : List Row) : Prop := rows.Pairwise fun a b => key a ≠ key b

theorem apart_of_unique {key : Row → K} {ids : Row → String} {rows : List Row}
    (unique : rows.Pairwise fun a b => (ids a == ids b) = false) (readable : ∀ a b, key a = key b → ids a = ids b) :
    Apart key rows :=
  unique.imp fun differ same => by simp [readable _ _ same] at differ

theorem apart_perm {key : Row → K} {rows rows' : List Row} (perm : rows.Perm rows') (apart : Apart key rows) :
    Apart key rows' := perm.pairwise apart fun differ => differ.symm

section Ordered
variable [LinearOrder K] (key : Row → K)

/-- The rows by their keys, the least first. -/
def ordered (rows : List Row) : List Row := rows.insertionSort fun a b => key a ≤ key b

/-- `findMany`: the first rows that the conditions select. -/
def findMany (w : Where Row) (take : Nat) (rows : List Row) : List Row := (ordered key (rows.filter (selects w))).take take

variable {key}

theorem ordered_perm (rows : List Row) : (ordered key rows).Perm rows := List.perm_insertionSort _ rows
theorem mem_ordered {rows : List Row} {row : Row} : row ∈ ordered key rows ↔ row ∈ rows := (ordered_perm rows).mem_iff

theorem ordered_apart {rows : List Row} (apart : Apart key rows) : (ordered key rows).Pairwise fun a b => key a < key b := by
  have total : Std.Total fun a b : Row => key a ≤ key b := ⟨fun a b => le_total _ _⟩
  have trans : IsTrans Row fun a b => key a ≤ key b := ⟨fun _ _ _ => le_trans⟩
  have sorted : (ordered key rows).Pairwise fun a b => key a ≤ key b := List.pairwise_insertionSort _ rows
  exact sorted.imp₂ (fun a b below differ => lt_of_le_of_ne below differ) (apart_perm (ordered_perm rows).symm apart)

theorem eq_of_ordered {rows rows' : List Row} (perm : rows.Perm rows') (sorted : rows.Pairwise fun a b => key a < key b)
    (sorted' : rows'.Pairwise fun a b => key a < key b) : rows = rows' :=
  List.Perm.eq_of_pairwise (fun _ _ _ _ below above => absurd (below.trans above) (lt_irrefl _)) sorted sorted' perm

theorem ordered_filter {rows : List Row} (apart : Apart key rows) (p : Row → Bool) :
    ordered key (rows.filter p) = (ordered key rows).filter p :=
  eq_of_ordered ((ordered_perm _).trans ((ordered_perm rows).filter p).symm) (ordered_apart (apart.filter p))
    ((ordered_apart apart).filter p)

theorem filter_behind {before behind : List Row} {row : Row}
    (sorted : (before ++ row :: behind).Pairwise fun a b => key a < key b) :
    (before ++ row :: behind).filter (fun r => key row < key r) = behind := by
  obtain ⟨_,tail,cross⟩ := List.pairwise_append.mp sorted
  obtain ⟨later,_⟩ := List.pairwise_cons.mp tail
  have none_ : before.filter (fun r => key row < key r) = [] := by
    refine List.filter_eq_nil_iff.mpr fun r listed => ?_
    have below := cross r listed row (List.mem_cons_self ..)
    simpa using below.le
  have all : behind.filter (fun r => key row < key r) = behind :=
    List.filter_eq_self.mpr fun r listed => decide_eq_true (later r listed)
  rw [List.filter_append,none_,List.nil_append,List.filter_cons_of_neg (by simp),all]

theorem filter_from {before behind : List Row} {row : Row}
    (sorted : (before ++ row :: behind).Pairwise fun a b => key a < key b) :
    (before ++ row :: behind).filter (fun r => key row ≤ key r) = row :: behind := by
  obtain ⟨_,tail,cross⟩ := List.pairwise_append.mp sorted
  obtain ⟨later,_⟩ := List.pairwise_cons.mp tail
  have none_ : before.filter (fun r => key row ≤ key r) = [] := by
    refine List.filter_eq_nil_iff.mpr fun r listed => ?_
    have below := cross r listed row (List.mem_cons_self ..)
    simpa using below
  have all : behind.filter (fun r => key row ≤ key r) = behind :=
    List.filter_eq_self.mpr fun r listed => decide_eq_true (later r listed).le
  rw [List.filter_append,none_,List.nil_append,List.filter_cons_of_pos (by simp),all]

end Ordered

end StellarAlerts.RowQueries
