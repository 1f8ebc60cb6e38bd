import Mathlib.Data.List.Induction

/-!
The first admitted element of every key, in order of arrival: what remains of a
stream when a store refuses a second entry under a key that it holds.
-/
namespace StellarAlerts.FirstOfKey
universe u v

variable {α : Type u} {κ : Type v} [DecidableEq κ]

/-- One more element: it is kept if it is admitted and its key is new. -/
def keep (ok : α → Bool) (key : α → κ) (kept : List α) (a : α) : List α :=
  if ok a && kept.all (fun b => key b ≠ key a) then kept ++ [a] else kept

/-- The elements that are kept of a list. -/
def firsts (ok : α → Bool) (key : α → κ) (list : List α) : List α := list.foldl (keep ok key) []

variable {ok : α → Bool} {key : α → κ}

theorem firsts_append (list more : List α) :
    firsts ok key (list ++ more) = more.foldl (keep ok key) (firsts ok key list) := List.foldl_append
theorem firsts_concat (list : List α) (a : α) :
    firsts ok key (list ++ [a]) = keep ok key (firsts ok key list) a := firsts_append list [a]

variable {a : α}

theorem mem_keep {kept : List α} {b : α} :
    b ∈ keep ok key kept a ↔ b ∈ kept ∨ b = a ∧ ok a = true ∧ ∀ c ∈ kept, key c ≠ key a := by
  unfold keep
  split
  next new =>
    simp only [Bool.and_eq_true,List.all_eq_true,decide_eq_true_eq] at new
    rw [List.mem_append,List.mem_singleton,and_iff_left new]
  next old =>
    simp only [Bool.and_eq_true,List.all_eq_true,decide_eq_true_eq] at old
    simp only [old,and_false,or_false]

/-- More elements only add to what is kept. -/
theorem firsts_mono (list more : List α) : firsts ok key list <+: firsts ok key (list ++ more) := by
  induction more using List.reverseRecOn with
  | nil => simp
  | append_singleton more last ih =>
    rw [← List.append_assoc,firsts_concat,keep]
    split
    next => exact ih.trans (List.prefix_append _ _)
    next => exact ih

theorem mem_of_mem_firsts {list : List α} (member : a ∈ firsts ok key list) : a ∈ list ∧ ok a = true := by
  induction list using List.reverseRecOn with
  | nil => cases member
  | append_singleton list last ih =>
    rw [firsts_concat,mem_keep] at member
    rcases member with old | ⟨rfl,admitted,_⟩
    · exact ⟨List.mem_append_left _ (ih old).1,(ih old).2⟩
    · exact ⟨by simp,admitted⟩

theorem eq_of_key {list : List α} {b : α} (first : a ∈ firsts ok key list) (second : b ∈ firsts ok key list)
    (same : key a = key b) : a = b := by
  induction list using List.reverseRecOn with
  | nil => cases first
  | append_singleton list last ih =>
    rw [firsts_concat,mem_keep] at first second
    rcases first with old | ⟨rfl,_,new⟩ <;> rcases second with old' | ⟨rfl,_,new'⟩
    · exact ih old old'
    · exact absurd same (new' a old)
    · exact absurd same.symm (new b old')
    · rfl

theorem firsts_keys_nodup (list : List α) : ((firsts ok key list).map key).Nodup := by
  induction list using List.reverseRecOn with
  | nil => exact List.nodup_nil
  | append_singleton list last ih =>
    rw [firsts_concat,keep]
    split
    next new =>
      simp only [Bool.and_eq_true,List.all_eq_true,decide_eq_true_eq] at new
      rw [List.map_append,List.map_singleton]
      refine List.nodup_append.mpr ⟨ih,List.pairwise_singleton ..,?_⟩
      intro k listed k' last_ same
      obtain ⟨b,kept,rfl⟩ := List.mem_map.mp listed
      obtain rfl := List.mem_singleton.mp last_
      exact new.2 b kept same
    next => exact ih

theorem find_mem_firsts {list : List α} {k : κ} (found : list.find? (fun b => ok b && key b = k) = some a) :
    a ∈ firsts ok key list := by
  induction list using List.reverseRecOn with
  | nil => cases found
  | append_singleton list last ih =>
    rw [firsts_concat,mem_keep]
    rw [List.find?_append] at found
    cases earlier : list.find? (fun b => ok b && key b = k) with
    | some b =>
      rw [earlier] at found
      exact Or.inl (ih (earlier.trans found))
    | none =>
      rw [earlier,Option.none_or,List.find?_singleton] at found
      split at found
      next admitted =>
        injection found with same
        subst same
        simp only [Bool.and_eq_true,decide_eq_true_eq] at admitted
        refine Or.inr ⟨rfl,admitted.1,fun c member sameKey => ?_⟩
        have inList := mem_of_mem_firsts member
        have absent := List.find?_eq_none.mp earlier c inList.1
        simp [inList.2,sameKey,admitted.2] at absent
      next => cases found

/-- An admitted element that no other of its key precedes or follows is kept. -/
theorem mem_firsts_of_alone {list : List α} (listed : a ∈ list) (admitted : ok a = true)
    (alone : ∀ b ∈ list, key b = key a → b = a) : a ∈ firsts ok key list := by
  have some_ : (list.find? fun b => ok b && decide (key b = key a)).isSome = true :=
    List.find?_isSome.mpr ⟨a,listed,by simp [admitted]⟩
  obtain ⟨b,found⟩ := Option.isSome_iff_exists.mp some_
  have passes := List.find?_some found
  simp only [Bool.and_eq_true,decide_eq_true_eq] at passes
  have kept := find_mem_firsts found
  rwa [alone b (List.mem_of_find?_eq_some found) passes.2] at kept

end StellarAlerts.FirstOfKey
