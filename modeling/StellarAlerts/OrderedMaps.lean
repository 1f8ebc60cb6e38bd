import Mathlib.Data.List.Induction
import Mathlib.Data.List.Nodup

/-!
Maps that keep their keys in the order of insertion. A key that is written again
keeps its place, one that is deleted and written again comes last. No key is listed
twice, so a lookup is what the entries say (`get_eq_some`).
-/
namespace StellarAlerts.OrderedMaps
universe u v

structure OrderedMap (κ : Type u) (ν : Type v) where
  entries : List (κ × ν)
  unique : (entries.map Prod.fst).Nodup

variable {κ : Type u} {ν : Type v}

def OrderedMap.empty : OrderedMap κ ν := ⟨[],List.nodup_nil⟩
@[simp] theorem empty_entries : (OrderedMap.empty : OrderedMap κ ν).entries = [] := rfl

variable {m : OrderedMap κ ν}

theorem eq_of_entries {m' : OrderedMap κ ν} (same : m.entries = m'.entries) : m = m' := by
  obtain ⟨entries,_⟩ := m
  obtain ⟨entries',_⟩ := m'
  obtain rfl : entries = entries' := same
  rfl

def OrderedMap.keys (m : OrderedMap κ ν) : List κ := m.entries.map Prod.fst

variable [DecidableEq κ]

def OrderedMap.get (m : OrderedMap κ ν) (k : κ) : Option ν := (m.entries.find? fun e => e.1 = k).map Prod.snd

def OrderedMap.set (m : OrderedMap κ ν) (k : κ) (v : ν) : OrderedMap κ ν :=
  if taken : k ∈ m.keys then
    ⟨m.entries.map fun e => if e.1 = k then (k,v) else e,by
      have same : (m.entries.map fun e => if e.1 = k then (k,v) else e).map Prod.fst = m.keys := by
        rw [List.map_map]
        refine List.map_congr_left fun e _ => ?_
        by_cases own : e.1 = k
        · simp [own]
        · simp [own]
      rw [same]
      exact m.unique⟩
  else
    ⟨m.entries ++ [(k,v)],by
      rw [List.map_append,List.map_singleton]
      exact List.Nodup.append m.unique (List.nodup_singleton k) (by simpa [OrderedMap.keys] using taken)⟩

def OrderedMap.delete (m : OrderedMap κ ν) (k : κ) : OrderedMap κ ν :=
  ⟨m.entries.filter fun e => e.1 ≠ k,m.unique.sublist (List.filter_sublist.map Prod.fst)⟩
@[simp] theorem get_empty (k : κ) : (OrderedMap.empty : OrderedMap κ ν).get k = none := rfl

variable {k : κ}

theorem get_eq_some {v : ν} : m.get k = some v ↔ (k,v) ∈ m.entries := by
  obtain ⟨entries,unique⟩ := m
  simp only [OrderedMap.get]
  induction entries with
  | nil => simp
  | cons e rest ih =>
    obtain ⟨first,others⟩ := List.nodup_cons.mp unique
    by_cases own : e.1 = k
    · have absent : (k,v) ∉ rest := fun listed => first (own ▸ List.mem_map_of_mem (f := Prod.fst) listed)
      simp only [List.find?_cons,own,decide_true,Option.map_some,Option.some.injEq,List.mem_cons,absent,or_false]
      obtain ⟨key,value⟩ := e
      obtain rfl : key = k := own
      simp [eq_comm]
    · have apart : (k,v) ≠ e := fun same => own (same ▸ rfl)
      simp only [List.find?_cons,own,decide_false,List.mem_cons,apart,false_or]
      exact ih others

theorem mem_keys_iff : k ∈ m.keys ↔ ∃ v, m.get k = some v := by
  simp [OrderedMap.keys,get_eq_some]

theorem get_eq_none : m.get k = none ↔ k ∉ m.keys := by
  rw [mem_keys_iff,Option.eq_none_iff_forall_ne_some]
  simp

theorem get_set (m : OrderedMap κ ν) (k k' : κ) (v : ν) : (m.set k v).get k' = if k' = k then some v else m.get k' := by
  refine Option.ext fun w => ?_
  rw [get_eq_some]
  by_cases taken : k ∈ m.keys
  · rw [OrderedMap.set,dif_pos taken,List.mem_map]
    by_cases own : k' = k
    · subst own
      rw [if_pos rfl,Option.some.injEq]
      constructor
      · rintro ⟨e,listed,same⟩
        by_cases at_ : e.1 = k'
        · rw [if_pos at_] at same
          exact congrArg Prod.snd same
        · rw [if_neg at_] at same
          exact absurd (congrArg Prod.fst same) at_
      · rintro rfl
        obtain ⟨old,found⟩ := mem_keys_iff.mp taken
        exact ⟨(k',old),get_eq_some.mp found,if_pos rfl⟩
    · rw [if_neg own,get_eq_some]
      constructor
      · rintro ⟨e,listed,same⟩
        by_cases at_ : e.1 = k
        · rw [if_pos at_] at same
          exact absurd (congrArg Prod.fst same).symm own
        · rw [if_neg at_] at same
          exact same ▸ listed
      · intro listed
        exact ⟨(k',w),listed,if_neg own⟩
  · rw [OrderedMap.set,dif_neg taken,List.mem_append,List.mem_singleton,Prod.mk.injEq]
    by_cases own : k' = k
    · subst own
      have absent : (k',w) ∉ m.entries := fun listed => taken (mem_keys_iff.mpr ⟨w,get_eq_some.mpr listed⟩)
      simp [absent,eq_comm]
    · simp [own,get_eq_some]

theorem keys_set (m : OrderedMap κ ν) (k : κ) (v : ν) : (m.set k v).keys = if k ∈ m.keys then m.keys else m.keys ++ [k] := by
  by_cases taken : k ∈ m.keys
  · rw [OrderedMap.set,dif_pos taken,if_pos taken,OrderedMap.keys,List.map_map]
    refine List.map_congr_left fun e _ => ?_
    by_cases own : e.1 = k
    · simp [own]
    · simp [own]
  · rw [OrderedMap.set,dif_neg taken,if_neg taken,OrderedMap.keys,List.map_append]
    rfl

theorem get_delete (m : OrderedMap κ ν) (k k' : κ) : (m.delete k).get k' = if k' = k then none else m.get k' := by
  refine Option.ext fun w => ?_
  rw [get_eq_some]
  by_cases own : k' = k
  · simp [OrderedMap.delete,own]
  · simp [OrderedMap.delete,own,get_eq_some]

theorem delete_of_none (free : m.get k = none) : m.delete k = m := by
  refine eq_of_entries (List.filter_eq_self.mpr fun e listed => ?_)
  have apart : e.1 ≠ k := fun own => get_eq_none.mp free (own ▸ List.mem_map_of_mem (f := Prod.fst) listed)
  simpa using apart

theorem entries_nil (free : ∀ k, m.get k = none) : m.entries = [] := by
  refine List.eq_nil_iff_forall_not_mem.mpr fun e listed => ?_
  have found := get_eq_some.mpr (show (e.1,e.2) ∈ m.entries from listed)
  rw [free] at found
  cases found

def OrderedMap.ofList (entries : List (κ × ν)) : OrderedMap κ ν :=
  entries.foldl (fun m e => m.set e.1 e.2) .empty
theorem ofList_concat (entries : List (κ × ν)) (e : κ × ν) :
    OrderedMap.ofList (entries ++ [e]) = (OrderedMap.ofList entries).set e.1 e.2 := List.foldl_append

theorem get_ofList (entries : List (κ × ν)) (k : κ) :
    (OrderedMap.ofList entries).get k = (entries.reverse.find? fun e => e.1 = k).map Prod.snd := by
  induction entries using List.reverseRecOn with
  | nil => rfl
  | append_singleton entries e ih =>
    rw [ofList_concat,get_set,List.reverse_append,List.reverse_singleton,List.singleton_append,List.find?_cons]
    by_cases own : k = e.1
    · simp [own]
    · simp [own,Ne.symm own,ih]

theorem ofList_entries (m : OrderedMap κ ν) : OrderedMap.ofList m.entries = m := by
  have rebuilt : ∀ entries : List (κ × ν), (entries.map Prod.fst).Nodup → (OrderedMap.ofList entries).entries = entries := by
    intro entries unique
    induction entries using List.reverseRecOn with
    | nil => rfl
    | append_singleton entries e ih =>
      rw [List.map_append,List.map_singleton,List.nodup_append] at unique
      have same := ih unique.1
      have free : e.1 ∉ (OrderedMap.ofList entries).keys := by
        rw [OrderedMap.keys,same]
        exact fun listed => unique.2.2 _ listed _ (by simp) rfl
      rw [ofList_concat,OrderedMap.set,dif_neg free]
      exact congrArg (fun older => older ++ [e]) same
  exact eq_of_entries (rebuilt m.entries m.unique)

end StellarAlerts.OrderedMaps
