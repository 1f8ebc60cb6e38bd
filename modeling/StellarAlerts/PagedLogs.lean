import Mathlib.Data.List.Pairwise
import Mathlib.Order.Basic

/-!
Logs of which several entries may stand at one place, read page by page. A page is whole
where it cuts no place (`Whole`): then it is all that the log has up to its newest place
(`whole_page`).
-/
namespace StellarAlerts.PagedLogs
universe u

variable {α : Type u} {place : α → Nat}

structure Log (place : α → Nat) where
  entries : List α
  sorted : entries.Pairwise fun a b => place a ≤ place b

/-- The entries that pass a test. -/
def Log.keep (log : Log place) (test : α → Bool) : Log place := ⟨log.entries.filter test,log.sorted.filter test⟩

/-- The entries from one place up to another. -/
def Log.range (log : Log place) (low high : Nat) : List α := log.entries.filter fun a => low ≤ place a ∧ place a ≤ high

def newest (place : α → Nat) (start : Nat) (page : List α) : Nat := page.foldl (fun n a => max n (place a)) start
def Whole (place : α → Nat) (page rest : List α) : Prop := ∀ a ∈ page, ∀ b ∈ rest, place a < place b

variable {log : Log place} {low middle high start : Nat} {a : α} {page rest : List α}

theorem mem_range : a ∈ log.range low high ↔ a ∈ log.entries ∧ low ≤ place a ∧ place a ≤ high := by
  simp [Log.range]
theorem range_keep (test : α → Bool) : (log.keep test).range low high = (log.range low high).filter test := by
  simp only [Log.range,Log.keep,List.filter_filter,Bool.and_comm]

theorem range_empty (none : high < low) : log.range low high = [] := by
  refine List.filter_eq_nil_iff.mpr fun a _ => ?_
  simp only [decide_eq_true_eq]
  omega

theorem filter_split {entries : List α} (sorted : entries.Pairwise fun a b => place a ≤ place b) (p : α → Bool)
    (middle : Nat) :
    entries.filter p =
      (entries.filter fun a => p a && decide (place a ≤ middle)) ++
        entries.filter fun a => p a && decide (middle < place a) := by
  induction entries with
  | nil => rfl
  | cons a rest ih =>
    obtain ⟨first,others⟩ := List.pairwise_cons.mp sorted
    by_cases early : place a ≤ middle
    · have late : ¬ middle < place a := by omega
      rw [List.filter_cons,ih others]
      by_cases passes : p a = true
      · simp [passes,early,late]
      · simp [passes]
    · have late : middle < place a := by omega
      have none : (rest.filter fun b => p b && decide (place b ≤ middle)) = [] := by
        refine List.filter_eq_nil_iff.mpr fun b listed => ?_
        have later := first b listed
        simp only [Bool.and_eq_true,decide_eq_true_eq]
        omega
      rw [List.filter_cons,ih others,none]
      by_cases passes : p a = true
      · simp [passes,early,late,none]
      · simp [passes,none]

theorem range_split (log : Log place) (le : low ≤ middle + 1) (le' : middle ≤ high) :
    log.range low high = log.range low middle ++ log.range (middle + 1) high := by
  rw [Log.range,filter_split log.sorted _ middle]
  congr 1
  · refine List.filter_congr fun a _ => ?_
    rw [← Bool.decide_and,decide_eq_decide]
    omega
  · refine List.filter_congr fun a _ => ?_
    rw [← Bool.decide_and,decide_eq_decide]
    omega

theorem newest_cons : newest place start (a :: page) = newest place (max start (place a)) page := rfl
theorem newest_append (first second : List α) :
    newest place start (first ++ second) = newest place (newest place start first) second := List.foldl_append

theorem le_newest (place : α → Nat) (start : Nat) (page : List α) : start ≤ newest place start page := by
  induction page generalizing start with
  | nil => exact Nat.le_refl start
  | cons a page ih =>
    rw [newest_cons]
    exact Nat.le_trans (Nat.le_max_left ..) (ih _)

theorem place_le_newest (listed : a ∈ page) : place a ≤ newest place start page := by
  induction page generalizing start with
  | nil => cases listed
  | cons b page ih =>
    rw [newest_cons]
    rcases List.mem_cons.mp listed with rfl | later
    · exact Nat.le_trans (Nat.le_max_right ..) (le_newest ..)
    · exact ih later

theorem newest_cases (place : α → Nat) (start : Nat) (page : List α) :
    newest place start page = start ∨ ∃ a ∈ page, newest place start page = place a := by
  induction page generalizing start with
  | nil => exact .inl rfl
  | cons b page ih =>
    rw [newest_cons]
    rcases ih (max start (place b)) with same | ⟨a,listed,same⟩
    · rw [same]
      rcases Nat.le_total (place b) start with below | above
      · exact .inl (Nat.max_eq_left below)
      · exact .inr ⟨b,List.mem_cons_self ..,Nat.max_eq_right above⟩
    · exact .inr ⟨a,List.mem_cons_of_mem b listed,same⟩

theorem newest_le (startLe : start ≤ high) (pageLe : ∀ a ∈ page, place a ≤ high) : newest place start page ≤ high := by
  rcases newest_cases place start page with same | ⟨a,listed,same⟩
  · rw [same]
    exact startLe
  · rw [same]
    exact pageLe a listed

section Whole
variable (split : log.range low high = page ++ rest) (whole : Whole place page rest) (some_ : page ≠ [])
include split

theorem page_range (listed : a ∈ page) : a ∈ log.entries ∧ low ≤ place a ∧ place a ≤ high :=
  mem_range.mp (split ▸ List.mem_append_left rest listed)
theorem rest_range (listed : a ∈ rest) : a ∈ log.entries ∧ low ≤ place a ∧ place a ≤ high :=
  mem_range.mp (split ▸ List.mem_append_right page listed)

include some_

theorem newest_moves : low ≤ newest place (low - 1) page ∧ newest place (low - 1) page ≤ high := by
  obtain ⟨a,listed⟩ := List.exists_mem_of_ne_nil page some_
  have bounds := (page_range split listed).2
  refine ⟨Nat.le_trans bounds.1 (place_le_newest listed),newest_le (by omega) ?_⟩
  intro b member
  exact (page_range split member).2.2

include whole

theorem rest_behind (listed : a ∈ rest) : newest place (low - 1) page < place a := by
  rcases newest_cases place (low - 1) page with same | ⟨b,member,same⟩
  · have moved := newest_moves split some_
    have bounds := (rest_range split listed).2
    obtain ⟨b,member⟩ := List.exists_mem_of_ne_nil page some_
    have first := whole b member a listed
    have above := (page_range split member).2.1
    omega
  · rw [same]
    exact whole b member a listed

theorem whole_page : log.range low (newest place (low - 1) page) = page := by
  have moved := newest_moves split some_
  have parts := range_split log (show low ≤ newest place (low - 1) page + 1 by omega) moved.2
  have first : log.range low (newest place (low - 1) page) =
      (log.range low high).filter fun a => place a ≤ newest place (low - 1) page := by
    rw [parts,List.filter_append]
    have all : (log.range low (newest place (low - 1) page)).filter (fun a => place a ≤ newest place (low - 1) page) =
        log.range low (newest place (low - 1) page) :=
      List.filter_eq_self.mpr fun a listed => decide_eq_true (mem_range.mp listed).2.2
    have none : (log.range (newest place (low - 1) page + 1) high).filter
        (fun a => place a ≤ newest place (low - 1) page) = [] := by
      refine List.filter_eq_nil_iff.mpr fun a listed => ?_
      have above := (mem_range.mp listed).2.1
      simp only [decide_eq_true_eq]
      omega
    rw [all,none,List.append_nil]
  have kept : page.filter (fun a => place a ≤ newest place (low - 1) page) = page :=
    List.filter_eq_self.mpr fun a listed => decide_eq_true (place_le_newest listed)
  have dropped : rest.filter (fun a => place a ≤ newest place (low - 1) page) = [] := by
    refine List.filter_eq_nil_iff.mpr fun a listed => ?_
    have behind := rest_behind split whole some_ listed
    simp only [decide_eq_true_eq]
    omega
  rw [first,split,List.filter_append,kept,dropped,List.append_nil]

end Whole
end StellarAlerts.PagedLogs
