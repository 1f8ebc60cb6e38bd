import StellarAlerts.Histories

/-!
Guards that accept a nonce once. A call is looked at in three steps: what it says about
itself is checked, its nonce is marked as seen, and it is authenticated. Because the
mark comes before the authentication, a call that is not authentic can use up the nonce
of one that is; a guard is changed by authentic calls only exactly where no call does
(`onlyAuthentic_iff`).
-/
namespace StellarAlerts.NonceGuards
open Histories
universe u v w

structure Guard (Call : Type u) (Nonce : Type v) where
  admits : Call → Bool
  nonceOf : Call → Option Nonce
  authentic : Call → Bool

section
variable {Call : Type u} {Nonce : Type v} {Answer : Type w} [DecidableEq Nonce] (g : Guard Call Nonce)

def Guard.step (seen : List Nonce) (call : Call) : Bool × List Nonce :=
  if !g.admits call then (false,seen)
  else
    match g.nonceOf call with
    | none => (g.authentic call,seen)
    | some nonce => if nonce ∈ seen then (false,seen) else (g.authentic call,seen ++ [nonce])

def Guard.burns (seen : List Nonce) (call : Call) : Bool :=
  g.admits call && (g.nonceOf call).any (fun nonce => decide (nonce ∉ seen)) && !g.authentic call

variable (step : List Nonce → Call → Answer × List Nonce) (valid : Answer → Bool)

/-- A machine that accepts and sees what the guard does. -/
def Implements : Prop := ∀ seen call, (valid (step seen call).1,(step seen call).2) = g.step seen call

/-- Over a sequence of calls: one that is not accepted leaves the nonces as they are; a genuine call is accepted unless its nonce was
    accepted before; and no nonce is accepted twice. -/
structure OnlyAuthentic (calls : List Call) : Prop where
  unchanged : ∀ t ∈ history step [] calls, valid t.answer = false → t.after = t.before
  genuine : ∀ before t after, history step [] calls = before ++ t :: after → g.admits t.input = true →
    g.authentic t.input = true →
      (∀ u ∈ before, valid u.answer = true → ∀ nonce, g.nonceOf t.input = some nonce → g.nonceOf u.input ≠ some nonce) →
        valid t.answer = true
  once : (history step [] calls).Pairwise fun t u => valid t.answer = true → valid u.answer = true →
    ∀ nonce, g.nonceOf t.input = some nonce → g.nonceOf u.input ≠ some nonce

variable {g step valid}

section
variable (implements : Implements g step valid)
include implements

/-- All that a call can do: it is refused and changes nothing, it is authenticated
    without a nonce, or its new nonce is marked whether it is authentic or not. -/
theorem implements_cases (seen : List Nonce) (call : Call) :
    (valid (step seen call).1 = false ∧ (step seen call).2 = seen ∧
        (g.admits call = false ∨ ∃ nonce ∈ seen, g.nonceOf call = some nonce)) ∨
      (g.admits call = true ∧ g.nonceOf call = none ∧ valid (step seen call).1 = g.authentic call ∧ (step seen call).2 = seen) ∨
      ∃ nonce, g.admits call = true ∧ g.nonceOf call = some nonce ∧ nonce ∉ seen ∧
        valid (step seen call).1 = g.authentic call ∧ (step seen call).2 = seen ++ [nonce] := by
  have same := implements seen call
  have answer : valid (step seen call).1 = (g.step seen call).1 := congrArg Prod.fst same
  have after : (step seen call).2 = (g.step seen call).2 := congrArg Prod.snd same
  unfold Guard.step at answer after
  cases admits : g.admits call with
  | false =>
    simp only [admits,Bool.not_false,↓reduceIte] at answer after
    exact .inl ⟨answer,after,.inl rfl⟩
  | true =>
    simp only [admits,Bool.not_true,Bool.false_eq_true,↓reduceIte] at answer after
    cases nonceIs : g.nonceOf call with
    | none =>
      simp only [nonceIs] at answer after
      exact .inr (.inl ⟨rfl,rfl,answer,after⟩)
    | some nonce =>
      simp only [nonceIs] at answer after
      by_cases known : nonce ∈ seen
      · rw [if_pos known] at answer after
        exact .inl ⟨answer,after,.inr ⟨nonce,known,rfl⟩⟩
      · rw [if_neg known] at answer after
        exact .inr (.inr ⟨nonce,rfl,rfl,known,answer,after⟩)

theorem unchanged_iff (seen : List Nonce) (call : Call) :
    (valid (step seen call).1 = false → (step seen call).2 = seen) ↔ g.burns seen call = false := by
  rcases implements_cases implements seen call with ⟨_,same,fails⟩ | ⟨admits,none,_,same⟩ |
    ⟨nonce,admits,nonceIs,fresh,answer,after⟩
  · refine iff_of_true (fun _ => same) ?_
    rcases fails with refused | ⟨nonce,known,nonceIs⟩
    · simp [Guard.burns,refused]
    · simp [Guard.burns,nonceIs,known]
  · exact iff_of_true (fun _ => same) (by simp [Guard.burns,none])
  · rw [answer,after]
    simp [Guard.burns,admits,nonceIs,fresh]

theorem seen_of_accepted (calls : List Call) :
    ∀ t ∈ history step [] calls, valid t.answer = true → ∀ nonce, g.nonceOf t.input = some nonce →
      nonce ∈ run step [] calls := by
  refine @history_rec _ _ _ step (fun past seen => ∀ t ∈ past, valid t.answer = true → ∀ nonce,
    g.nonceOf t.input = some nonce → nonce ∈ seen) [] (fun t listed => by cases listed) ?_ calls
  intro past seen call known t listed accepted nonce nonceIs
  rcases List.mem_append.mp listed with earlier | now
  · have old := known t earlier accepted nonce nonceIs
    rcases implements_cases implements seen call with ⟨_,same,_⟩ | ⟨_,_,_,same⟩ | ⟨_,_,_,_,_,after⟩
    · rw [same]
      exact old
    · rw [same]
      exact old
    · rw [after]
      exact List.mem_append_left _ old
  · obtain rfl := List.mem_singleton.mp now
    change valid (step seen call).1 = true at accepted
    change g.nonceOf call = some nonce at nonceIs
    rcases implements_cases implements seen call with ⟨answer,_,_⟩ | ⟨_,none,_,_⟩ | ⟨other,_,otherIs,_,_,after⟩
    · rw [answer] at accepted
      cases accepted
    · rw [none] at nonceIs
      cases nonceIs
    · rw [nonceIs] at otherIs
      rw [after,← Option.some.inj otherIs]
      exact List.mem_append_right _ (List.mem_singleton_self nonce)

theorem accepted_of_seen (calls : List Call) :
    (∀ t ∈ history step [] calls, g.burns t.before t.input = false) → ∀ nonce ∈ run step [] calls,
      ∃ t ∈ history step [] calls, valid t.answer = true ∧ g.nonceOf t.input = some nonce := by
  refine @history_rec _ _ _ step (fun past seen => (∀ t ∈ past, g.burns t.before t.input = false) → ∀ nonce ∈ seen,
    ∃ t ∈ past, valid t.answer = true ∧ g.nonceOf t.input = some nonce) [] (fun _ nonce listed => by cases listed) ?_ calls
  intro past seen call known sound nonce listed
  have carry : nonce ∈ seen → ∃ t ∈ past ++ [transition step seen call], valid t.answer = true ∧
      g.nonceOf t.input = some nonce := by
    intro old
    obtain ⟨t,earlier,accepted⟩ := known (fun t earlier => sound t (List.mem_append_left _ earlier)) nonce old
    exact ⟨t,List.mem_append_left _ earlier,accepted⟩
  rcases implements_cases implements seen call with ⟨_,same,_⟩ | ⟨_,_,_,same⟩ | ⟨other,admits,otherIs,fresh,answer,after⟩
  · rw [same] at listed
    exact carry listed
  · rw [same] at listed
    exact carry listed
  · rw [after] at listed
    rcases List.mem_append.mp listed with old | new
    · exact carry old
    · have unburnt := sound (transition step seen call) (by simp)
      have authentic : g.authentic call = true := by
        simpa [transition,Guard.burns,admits,otherIs,fresh] using unburnt
      exact ⟨transition step seen call,by simp,answer.trans authentic,
        otherIs.trans (congrArg some (List.mem_singleton.mp new).symm)⟩

theorem accepted_once (calls : List Call) :
    (history step [] calls).Pairwise fun t u => valid t.answer = true → valid u.answer = true →
      ∀ nonce, g.nonceOf t.input = some nonce → g.nonceOf u.input ≠ some nonce := by
  induction calls using List.reverseRecOn with
  | nil => exact List.Pairwise.nil
  | append_singleton calls call ih =>
    rw [history_append,List.pairwise_append]
    refine ⟨ih,List.pairwise_singleton _ _,?_⟩
    intro t earlier u now accepted accepted' nonce nonceIs nonceIs'
    obtain rfl := List.mem_singleton.mp now
    have known := seen_of_accepted implements calls t earlier accepted nonce nonceIs
    change valid (step (run step [] calls) call).1 = true at accepted'
    change g.nonceOf call = some nonce at nonceIs'
    rcases implements_cases implements (run step [] calls) call with ⟨answer,_,_⟩ | ⟨_,none,_,_⟩ | ⟨other,_,otherIs,fresh,_,_⟩
    · rw [answer] at accepted'
      cases accepted'
    · rw [none] at nonceIs'
      cases nonceIs'
    · rw [nonceIs'] at otherIs
      exact fresh (Option.some.inj otherIs ▸ known)

theorem genuine_accepted {calls : List Call} {call : Call}
    (sound : ∀ t ∈ history step [] calls, g.burns t.before t.input = false) (admits : g.admits call = true)
    (authentic : g.authentic call = true)
    (fresh : ∀ u ∈ history step [] calls, valid u.answer = true → ∀ nonce, g.nonceOf call = some nonce →
      g.nonceOf u.input ≠ some nonce) :
    valid (step (run step [] calls) call).1 = true := by
  rcases implements_cases implements (run step [] calls) call with ⟨_,_,fails⟩ | ⟨_,_,answer,_⟩ | ⟨_,_,_,_,answer,_⟩
  · rcases fails with refused | ⟨nonce,known,nonceIs⟩
    · rw [admits] at refused
      cases refused
    · obtain ⟨u,earlier,accepted,same⟩ := accepted_of_seen implements calls sound nonce known
      exact absurd same (fresh u earlier accepted nonce nonceIs)
  · exact answer.trans authentic
  · exact answer.trans authentic

theorem onlyAuthentic_iff (calls : List Call) :
    OnlyAuthentic g step valid calls ↔ ∀ t ∈ history step [] calls, g.burns t.before t.input = false := by
  constructor
  · intro only t listed
    obtain ⟨before,call,rfl⟩ := mem_history listed
    exact (unchanged_iff implements _ call).mp (only.unchanged _ listed)
  · intro sound
    refine ⟨fun t listed => ?_,?_,accepted_once implements calls⟩
    · have unburnt := sound t listed
      obtain ⟨before,call,rfl⟩ := mem_history listed
      exact (unchanged_iff implements _ call).mpr unburnt
    · intro before t after split admits authentic fresh
      obtain ⟨first,call,rest,_,rfl,rfl,_⟩ := history_split split
      refine genuine_accepted implements (fun u earlier => sound u ?_) admits authentic fresh
      rw [split]
      exact List.mem_append_left _ earlier

end

end
end StellarAlerts.NonceGuards
