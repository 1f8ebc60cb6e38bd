import Mathlib.Data.List.Perm.Basic
import StellarAlerts.OrderedMaps

/-!
A list sorted into groups by a key, in a map: the group of a key is what the list has
under it, in order (`get_groups`), and together the groups are the list (`groups_perm`).
-/
namespace StellarAlerts.Groups
open OrderedMaps
universe u v
variable {α : Type u} {κ : Type v} [DecidableEq κ]

def put (key : α → κ) (groups : OrderedMap κ (List α)) (a : α) : OrderedMap κ (List α) :=
  groups.set (key a) ((groups.get (key a)).getD [] ++ [a])
def groups (key : α → κ) (list : List α) : OrderedMap κ (List α) := list.foldl (put key) .empty

variable {key : α → κ}

theorem groups_concat (list : List α) (a : α) : groups key (list ++ [a]) = put key (groups key list) a := List.foldl_append

theorem get_groups (list : List α) (k : κ) :
    (groups key list).get k = if ∃ a ∈ list, key a = k then some (list.filter fun a => key a = k) else none := by
  induction list using List.reverseRecOn with
  | nil => simp [groups]
  | append_singleton list last ih =>
    rw [groups_concat,put,get_set]
    by_cases own : k = key last
    · subst own
      have there : ∃ a ∈ list ++ [last], key a = key last := ⟨last,by simp,rfl⟩
      rw [if_pos rfl,if_pos there,ih]
      by_cases before : ∃ a ∈ list, key a = key last
      · simp [before]
      · have none_ : list.filter (fun a => key a = key last) = [] := by
          rw [List.filter_eq_nil_iff]
          intro a listed
          simpa using fun same => before ⟨a,listed,same⟩
        simp [before,none_]
    · have other : key last ≠ k := fun same => own same.symm
      rw [if_neg own,ih]
      simp [other]

theorem group_eq {list : List α} {k : κ} {group : List α} (member : (k,group) ∈ (groups key list).entries) :
    group = list.filter fun a => key a = k := by
  have found := get_eq_some.mpr member
  rw [get_groups] at found
  split at found
  · exact (Option.some.inj found).symm
  · cases found

theorem mem_keys_groups {list : List α} {k : κ} : k ∈ (groups key list).keys ↔ ∃ a ∈ list, key a = k := by
  rw [mem_keys_iff]
  simp only [get_groups]
  by_cases there : ∃ a ∈ list, key a = k
  · simp [there]
  · simp [there]

theorem filters_perm {keys : List κ} (distinct : keys.Nodup) :
    ∀ {list : List α}, (∀ a ∈ list, key a ∈ keys) → (keys.flatMap fun k => list.filter fun a => key a = k).Perm list := by
  induction keys with
  | nil =>
    intro list covered
    cases list with
    | nil => exact .nil
    | cons a rest => exact absurd (covered a (by simp)) (by simp)
  | cons k keys ih =>
    intro list covered
    have fresh := (List.nodup_cons.mp distinct).1
    have others : ∀ k' ∈ keys, (list.filter fun a => key a = k') =
        ((list.filter fun a => !decide (key a = k)).filter fun a => key a = k') := by
      intro k' listed
      rw [List.filter_filter]
      refine List.filter_congr fun a _ => ?_
      by_cases own : key a = k'
      · have other : key a ≠ k := fun same => fresh (same ▸ own ▸ listed)
        simp [own,own ▸ other]
      · simp [own]
    have rest : ∀ a ∈ list.filter (fun a => !decide (key a = k)), key a ∈ keys := by
      intro a member
      obtain ⟨listed,other⟩ := List.mem_filter.mp member
      have isOther : key a ≠ k := by simpa using other
      exact (List.mem_cons.mp (covered a listed)).resolve_left isOther
    rw [List.flatMap_cons]
    calc (list.filter fun a => key a = k) ++ keys.flatMap (fun k' => list.filter fun a => key a = k')
        = (list.filter fun a => key a = k) ++
            keys.flatMap (fun k' => (list.filter fun a => !decide (key a = k)).filter fun a => key a = k') := by
          congr 1
          rw [List.flatMap,List.flatMap,List.map_congr_left others]
      _ |>.Perm ((list.filter fun a => key a = k) ++ list.filter fun a => !decide (key a = k)) :=
          (ih (List.nodup_cons.mp distinct).2 rest).append_left _
      _ |>.Perm list := List.filter_append_perm _ list

theorem groups_perm (list : List α) : ((groups key list).entries.flatMap Prod.snd).Perm list := by
  have same : (groups key list).entries.flatMap Prod.snd =
      (groups key list).keys.flatMap fun k => list.filter fun a => key a = k := by
    rw [OrderedMap.keys,List.flatMap_map,List.flatMap,List.flatMap]
    congr 1
    exact List.map_congr_left fun entry member => group_eq member
  rw [same]
  exact filters_perm (groups key list).unique fun a listed => mem_keys_groups.mpr ⟨a,listed,rfl⟩

end StellarAlerts.Groups
