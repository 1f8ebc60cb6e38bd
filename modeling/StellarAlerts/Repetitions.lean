import Mathlib.Data.List.Perm.Basic
import StellarAlerts.OrderedMaps

/-!
A list taken apart into what is new in it and what repeats an earlier item. A map that is
written item by item keeps the new ones, in order (`keys_foldl_set`).
-/
namespace StellarAlerts.Repetitions
open OrderedMaps
universe u v
variable {α : Type u} [DecidableEq α]

/-- What was not seen before, each once. -/
def news : List α → List α → List α
  | _, [] => []
  | seen, a :: rest => if a ∈ seen then news seen rest else a :: news (a :: seen) rest

/-- What was seen before. -/
def repeats : List α → List α → List α
  | _, [] => []
  | seen, a :: rest => if a ∈ seen then a :: repeats seen rest else repeats (a :: seen) rest

theorem split_perm (seen list : List α) : (news seen list ++ repeats seen list).Perm list := by
  induction list generalizing seen with
  | nil => exact .nil
  | cons a rest ih =>
    by_cases old : a ∈ seen
    · simp only [news,repeats,if_pos old]
      exact List.perm_middle.trans ((ih seen).cons a)
    · simp only [news,repeats,if_neg old,List.cons_append]
      exact (ih (a :: seen)).cons a

theorem news_congr {seen seen' : List α} (same : ∀ a, a ∈ seen ↔ a ∈ seen') (list : List α) : news seen list = news seen' list := by
  induction list generalizing seen seen' with
  | nil => rfl
  | cons a rest ih =>
    have later := @ih (a :: seen) (a :: seen') fun b => by simp [same b]
    by_cases old : a ∈ seen
    · simp only [news,if_pos old,if_pos ((same a).mp old)]
      exact ih same
    · simp only [news,if_neg old,if_neg fun there => old ((same a).mpr there),later]

/-- A map written item by item lists what is new behind what it had. -/
theorem keys_foldl_set {ν : Type v} (value : α → ν) (list : List α) (m : OrderedMap α ν) :
    (list.foldl (fun m a => m.set a (value a)) m).keys = m.keys ++ news m.keys list := by
  induction list generalizing m with
  | nil => simp [news]
  | cons a rest ih =>
    rw [List.foldl_cons,ih,keys_set]
    by_cases old : a ∈ m.keys
    · simp only [news,if_pos old]
    · have seen : news (m.keys ++ [a]) rest = news (a :: m.keys) rest := news_congr (by simp [or_comm]) rest
      simp only [news,if_neg old,seen,List.append_assoc,List.singleton_append]

end StellarAlerts.Repetitions
