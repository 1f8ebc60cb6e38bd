import Mathlib.Data.List.Perm.Lattice
import Mathlib.Data.List.Induction

/-!
Items that are given one after another to holders. Where every item fits one holder at
most, the holders that are served are those that some item fits (`mem_served_iff`), so
the order of the items changes only the order in which holders are served
(`served_perm`).
-/
namespace StellarAlerts.GreedyMatching
universe u v

variable {Holder : Type u} {Item : Type v} [DecidableEq Holder] (fits : Holder → Item → Bool) (holders : List Holder)

/-- The holders that are served, in order, and the number of items that are turned away. -/
structure Matching (Holder : Type u) where
  served : List Holder
  rejected : Nat
deriving DecidableEq, Repr

def taker (served : List Holder) (item : Item) : Option Holder := holders.find? fun h => h ∉ served ∧ fits h item = true

def Matching.give (m : Matching Holder) (item : Item) : Matching Holder :=
  match taker fits holders m.served item with
  | some h => ⟨m.served ++ [h],m.rejected⟩
  | none => ⟨m.served,m.rejected + 1⟩

def matching (items : List Item) : Matching Holder := items.foldl (Matching.give fits holders) ⟨[],0⟩

/-- Each of the items fits one holder at most. -/
def Single (items : List Item) : Prop :=
  ∀ item ∈ items, ∀ g ∈ holders, ∀ h ∈ holders, fits g item = true → fits h item = true → g = h

variable {fits holders}

theorem taker_some {served : List Holder} {item : Item} {h : Holder} (takes : taker fits holders served item = some h) :
    h ∈ holders ∧ h ∉ served ∧ fits h item = true := by
  have fine := List.find?_some takes
  simp only [decide_eq_true_eq] at fine
  exact ⟨List.mem_of_find?_eq_some takes,fine⟩

theorem taker_none {served : List Holder} {item : Item} (turned : taker fits holders served item = none) {h : Holder}
    (holder : h ∈ holders) (fit : fits h item = true) : h ∈ served := by
  by_contra free
  have fine := List.find?_eq_none.mp turned h holder
  simp only [decide_eq_true_eq] at fine
  exact fine ⟨free,fit⟩

theorem matching_concat (items : List Item) (item : Item) :
    matching fits holders (items ++ [item]) = (matching fits holders items).give fits holders item := by
  rw [matching,List.foldl_append]
  rfl

theorem give_cases (m : Matching Holder) (item : Item) :
    (∃ h ∈ holders, h ∉ m.served ∧ fits h item = true ∧ m.give fits holders item = ⟨m.served ++ [h],m.rejected⟩) ∨
      (∀ h ∈ holders, fits h item = true → h ∈ m.served) ∧ m.give fits holders item = ⟨m.served,m.rejected + 1⟩ := by
  cases found : taker fits holders m.served item with
  | some h =>
    obtain ⟨holder,free,fit⟩ := taker_some found
    exact .inl ⟨h,holder,free,fit,by rw [Matching.give,found]⟩
  | none => exact .inr ⟨fun h => taker_none found,by rw [Matching.give,found]⟩

theorem served_nodup (items : List Item) : (matching fits holders items).served.Nodup := by
  induction items using List.reverseRecOn with
  | nil => exact List.nodup_nil
  | append_singleton items item ih =>
    rw [matching_concat]
    rcases give_cases (matching fits holders items) item with ⟨h,_,free,_,next⟩ | ⟨_,next⟩
    · rw [next]
      exact List.nodup_append.mpr ⟨ih,List.nodup_singleton h,fun a member b isLast same =>
        free (List.mem_singleton.mp isLast ▸ same ▸ member)⟩
    · rw [next]
      exact ih

theorem served_or_rejected (items : List Item) :
    (matching fits holders items).served.length + (matching fits holders items).rejected = items.length := by
  induction items using List.reverseRecOn with
  | nil => rfl
  | append_singleton items item ih =>
    rw [matching_concat,List.length_append,List.length_singleton]
    rcases give_cases (matching fits holders items) item with ⟨h,_,_,_,next⟩ | ⟨_,next⟩
    · rw [next]
      show (_ ++ [h]).length + (matching fits holders items).rejected = _
      rw [List.length_append,List.length_singleton]
      omega
    · rw [next]
      show (matching fits holders items).served.length + (_ + 1) = _
      omega

theorem served_fits {items : List Item} {h : Holder} (isServed : h ∈ (matching fits holders items).served) :
    h ∈ holders ∧ ∃ item ∈ items, fits h item = true := by
  induction items using List.reverseRecOn with
  | nil => cases isServed
  | append_singleton items item ih =>
    have earlier : h ∈ (matching fits holders items).served → h ∈ holders ∧ ∃ i ∈ items ++ [item], fits h i = true := by
      intro before
      obtain ⟨holder,i,listed,fit⟩ := ih before
      exact ⟨holder,i,List.mem_append_left _ listed,fit⟩
    rw [matching_concat] at isServed
    rcases give_cases (matching fits holders items) item with ⟨g,holder,_,fit,next⟩ | ⟨_,next⟩
    · rw [next] at isServed
      rcases List.mem_append.mp isServed with before | isLast
      · exact earlier before
      · obtain rfl := List.mem_singleton.mp isLast
        exact ⟨holder,item,List.mem_append_right _ (List.mem_singleton_self _),fit⟩
    · rw [next] at isServed
      exact earlier isServed

omit [DecidableEq Holder] in
theorem Single.of_subset {items more : List Item} (single : Single fits holders more) (subset : items ⊆ more) :
    Single fits holders items := fun item listed => single item (subset listed)

theorem mem_served_iff {items : List Item} (single : Single fits holders items) (h : Holder) :
    h ∈ (matching fits holders items).served ↔ h ∈ holders ∧ ∃ item ∈ items, fits h item = true := by
  refine ⟨served_fits,?_⟩
  rintro ⟨holder,item,listed,fit⟩
  induction items using List.reverseRecOn with
  | nil => cases listed
  | append_singleton items last ih =>
    rw [matching_concat]
    have earlier : item ∈ items → h ∈ (matching fits holders items).served :=
      ih (single.of_subset (List.subset_append_left ..))
    rcases give_cases (matching fits holders items) last with ⟨g,takes,_,gFits,next⟩ | ⟨taken,next⟩
    · rw [next]
      rcases List.mem_append.mp listed with before | isLast
      · exact List.mem_append_left _ (earlier before)
      · obtain rfl := List.mem_singleton.mp isLast
        rw [single item listed h holder g takes fit gFits]
        exact List.mem_append_right _ (List.mem_singleton_self _)
    · rw [next]
      rcases List.mem_append.mp listed with before | isLast
      · exact earlier before
      · obtain rfl := List.mem_singleton.mp isLast
        exact taken h holder fit

theorem served_mono {items more : List Item} (single : Single fits holders more) (subset : items ⊆ more) :
    (matching fits holders items).served ⊆ (matching fits holders more).served := by
  intro h isServed
  obtain ⟨holder,item,listed,fit⟩ := served_fits isServed
  exact (mem_served_iff single h).mpr ⟨holder,item,subset listed,fit⟩

theorem served_perm {items other : List Item} (single : Single fits holders items) (perm : items.Perm other) :
    (matching fits holders items).served.Perm (matching fits holders other).served :=
  (List.perm_ext_iff_of_nodup (served_nodup items) (served_nodup other)).mpr fun _ =>
    ⟨fun isServed => served_mono (single.of_subset perm.symm.subset) perm.subset isServed,
      fun isServed => served_mono single perm.symm.subset isServed⟩

theorem rejected_perm {items other : List Item} (single : Single fits holders items) (perm : items.Perm other) :
    (matching fits holders items).rejected = (matching fits holders other).rejected := by
  have length := (served_perm single perm).length_eq
  have first := @served_or_rejected _ _ _ fits holders items
  have second := @served_or_rejected _ _ _ fits holders other
  have same := perm.length_eq
  omega

end StellarAlerts.GreedyMatching
