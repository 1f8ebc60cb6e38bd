import Mathlib.Data.List.Basic

/-!
Queues whose elements may depend on others. A queue is covered when everything an
element depends on is done or waits before it, so that working from the front never
meets an element too early.
-/
namespace StellarAlerts.CoveredQueues
universe u
variable {α : Type u}

def Covered (Needs : α → α → Prop) (Done : α → Prop) (queue : List α) : Prop :=
  ∀ before q after, queue = before ++ q :: after → ∀ r, Needs q r → Done r ∨ r ∈ before

variable {Needs : α → α → Prop} {Done Done' : α → Prop} {queue rest : List α} {x : α}

theorem covered_nil : Covered Needs Done [] := by
  intro before q after empty
  simp at empty

theorem covered_mono (more : ∀ r, Done r → Done' r) (covered : Covered Needs Done queue) : Covered Needs Done' queue :=
  fun before q after split r needed => (covered before q after split r needed).imp_left (more r)

theorem covered_concat (covered : Covered Needs Done queue) (needs : ∀ r, Needs x r → Done r ∨ r ∈ queue) :
    Covered Needs Done (queue ++ [x]) := by
  intro before q after split r needed
  rcases List.eq_nil_or_concat after with rfl | ⟨inner,last,rfl⟩
  · obtain ⟨rfl,same⟩ := List.append_inj' split rfl
    cases same
    exact needs r needed
  · have regrouped : queue ++ [x] = (before ++ q :: inner) ++ [last] := by simpa using split
    exact covered before q inner (List.append_inj' regrouped rfl).1 r needed

theorem covered_head (covered : Covered Needs Done (x :: rest)) {r : α} (needed : Needs x r) : Done r := by
  rcases covered [] x rest rfl r needed with done | listed
  · exact done
  · cases listed

/-- The first element leaves; those that need it have it done or queued again. -/
theorem covered_tail (covered : Covered Needs Done (x :: rest))
    (left : ∀ before q after, rest = before ++ q :: after → Needs q x → Done x ∨ x ∈ before) :
    Covered Needs Done rest := by
  intro before q after split r needed
  have placed := covered (x :: before) q after (by rw [split,List.cons_append]) r needed
  rw [List.mem_cons] at placed
  rcases placed with done | rfl | earlier
  · exact Or.inl done
  · exact left before q after split needed
  · exact Or.inr earlier

end StellarAlerts.CoveredQueues
