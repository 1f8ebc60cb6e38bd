import StellarAlerts.PagedLogs

/-!
Logs whose entries stand at strictly rising places. What a log has between two places is
one stretch of it (`between_split`), and a reader that has come to a place finds the
next entry right behind (`between_next`).
-/
namespace StellarAlerts.RisingLogs
open PagedLogs (filter_split)
universe u

variable {α : Type u} {place : α → Nat}

structure Log (place : α → Nat) where
  entries : List α
  rising : entries.Pairwise fun a b => place a < place b

/-- The entries that pass a test. -/
def Log.keep (log : Log place) (test : α → Bool) : Log place := ⟨log.entries.filter test,log.rising.filter test⟩

/-- The first entry behind a place. -/
def Log.next (log : Log place) (from_ : Nat) : Option α := log.entries.find? fun a => from_ < place a

/-- The entries behind one place and up to another. -/
def Log.between (log : Log place) (low high : Nat) : List α :=
  log.entries.filter fun a => low < place a ∧ place a ≤ high

def Log.behind (log : Log place) (low : Nat) : List α := log.entries.filter fun a => low < place a

variable {log : Log place} {low middle high : Nat} {a : α}

theorem between_keep (test : α → Bool) : (log.keep test).between low high = (log.between low high).filter test := by
  simp only [Log.between,Log.keep,List.filter_filter,Bool.and_comm]
theorem between_rising : (log.between low high).Pairwise fun a b => place a < place b := log.rising.filter _

theorem between_empty (none : high ≤ low) : log.between low high = [] := by
  refine List.filter_eq_nil_iff.mpr fun a _ => ?_
  simp only [decide_eq_true_eq]
  omega

theorem sorted (log : Log place) : log.entries.Pairwise fun a b => place a ≤ place b :=
  log.rising.imp fun less => Nat.le_of_lt less

theorem between_split (log : Log place) (le : low ≤ middle) (le' : middle ≤ high) :
    log.between low high = log.between low middle ++ log.between middle high := by
  rw [Log.between,filter_split (sorted log) _ middle]
  congr 1
  · refine List.filter_congr fun a _ => ?_
    rw [← Bool.decide_and,decide_eq_decide]
    omega
  · refine List.filter_congr fun a _ => ?_
    rw [← Bool.decide_and,decide_eq_decide]
    omega

/-- What has been read is the beginning of what there is to read. -/
theorem between_first : log.between low high <+: log.behind low := by
  have split := filter_split (sorted log) (fun a => decide (low < place a)) high
  have same : (log.entries.filter fun a => decide (low < place a) && decide (place a ≤ high)) = log.between low high :=
    List.filter_congr fun a _ => by rw [Bool.decide_and]
  rw [same] at split
  exact ⟨_,split.symm⟩

theorem next_place (found : log.next low = some a) : low < place a := by
  simpa using List.find?_some found
theorem mem_of_next (found : log.next low = some a) : a ∈ log.entries := List.mem_of_find?_eq_some found

/-- Up to the next entry there is none but that. -/
theorem between_next (found : log.next low = some a) : log.between low (place a) = [a] := by
  have behind := next_place found
  obtain ⟨_,earlier,later,split,before⟩ := List.find?_eq_some_iff_append.mp found
  have rising := log.rising
  rw [split,List.pairwise_append] at rising
  obtain ⟨_,second,_⟩ := rising
  have front : (earlier.filter fun b => low < place b ∧ place b ≤ place a) = [] := by
    refine List.filter_eq_nil_iff.mpr fun b listed => ?_
    have passed := before b listed
    simp only [decide_eq_true_eq,Bool.not_eq_eq_eq_not,Bool.not_true,decide_eq_false_iff_not] at passed ⊢
    omega
  have back : (later.filter fun b => low < place b ∧ place b ≤ place a) = [] := by
    refine List.filter_eq_nil_iff.mpr fun b listed => ?_
    have above := (List.pairwise_cons.mp second).1 b listed
    simp only [decide_eq_true_eq]
    omega
  rw [Log.between,split,List.filter_append,List.filter_cons,front,back]
  simp [behind]

end StellarAlerts.RisingLogs
