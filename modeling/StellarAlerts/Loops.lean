import Mathlib.Data.List.Basic

/-!
Loops that turn until a turn gives a result. A loop whose turns lower a measure ends
(`loop_ends`), and so does every number of turns that is larger give the same
(`loop_more`). What holds of the effects of each turn holds of those of the loop
(`loop_effects`), and at most one effect a turn are at most as many as there are turns
(`loop_count`).
-/
namespace StellarAlerts.Loops
universe u v w
variable {State : Type u} {Effect : Type v} {Result : Type w}

def loop (turn : State → List Effect × (State ⊕ Result)) : Nat → State → List Effect × Option Result
  | 0, _ => ([],none)
  | turns + 1, s =>
    match (turn s).2 with
    | .inl next => ((turn s).1 ++ (loop turn turns next).1,(loop turn turns next).2)
    | .inr result => ((turn s).1,some result)

variable {turn : State → List Effect × (State ⊕ Result)}

variable {s : State}

theorem loop_again {next : State} (again : (turn s).2 = .inl next) (turns : Nat) :
    loop turn (turns + 1) s = ((turn s).1 ++ (loop turn turns next).1,(loop turn turns next).2) := by
  simp only [loop,again]

theorem loop_done {result : Result} (done : (turn s).2 = .inr result) (turns : Nat) :
    loop turn (turns + 1) s = ((turn s).1,some result) := by
  simp only [loop,done]

section Measure
variable {measure : State → Nat}

theorem loop_ends (falls : ∀ s next, (turn s).2 = .inl next → measure next < measure s) {turns : Nat} {s : State}
    (enough : measure s < turns) : ∃ result, (loop turn turns s).2 = some result := by
  induction turns generalizing s with
  | zero => omega
  | succ turns ih =>
    cases answer : (turn s).2 with
    | inr result => exact ⟨result,by rw [loop_done answer]⟩
    | inl next =>
      have lower := falls s next answer
      rw [loop_again answer]
      exact ih (by omega)

theorem loop_more {n m : Nat} {s : State} {result : Result} (ended : (loop turn n s).2 = some result) (more : n ≤ m) :
    loop turn m s = loop turn n s := by
  induction n generalizing s m with
  | zero => cases ended
  | succ n ih =>
    obtain ⟨m,rfl⟩ : ∃ k, m = k + 1 := ⟨m - 1,by omega⟩
    cases answer : (turn s).2 with
    | inr result => rw [loop_done answer,loop_done answer]
    | inl next =>
      rw [loop_again answer] at ended
      rw [loop_again answer,loop_again answer,ih ended (by omega)]

end Measure

theorem loop_endless {I : State → Prop} (again : ∀ s, I s → ∃ next, (turn s).2 = .inl next ∧ I next) (turns : Nat)
    (inside : I s) : (loop turn turns s).2 = none := by
  induction turns generalizing s with
  | zero => rfl
  | succ turns ih =>
    obtain ⟨next,answer,inside'⟩ := again s inside
    rw [loop_again answer]
    exact ih inside'

section Effects

theorem loop_effects {P : List Effect → Prop} (none : P []) (append : ∀ first second, P first → P second → P (first ++ second))
    (each : ∀ s, P (turn s).1) (turns : Nat) (s : State) : P (loop turn turns s).1 := by
  induction turns generalizing s with
  | zero => exact none
  | succ turns ih =>
    cases answer : (turn s).2 with
    | inr result =>
      rw [loop_done answer]
      exact each s
    | inl next =>
      rw [loop_again answer]
      exact append _ _ (each s) (ih next)

theorem loop_count {measure : State → Nat} {counted : Effect → Bool}
    (falls : ∀ s next, (turn s).2 = .inl next → measure next < measure s)
    (once : ∀ s, (turn s).1.countP counted ≤ 1) (turns : Nat) (s : State) :
    (loop turn turns s).1.countP counted ≤ measure s + 1 := by
  induction turns generalizing s with
  | zero => simp [loop]
  | succ turns ih =>
    have first := once s
    cases answer : (turn s).2 with
    | inr result =>
      rw [loop_done answer]
      show (turn s).1.countP counted ≤ _
      omega
    | inl next =>
      have lower := falls s next answer
      have later := ih next
      rw [loop_again answer,List.countP_append]
      omega

end Effects

section Guarded
variable {needs : Effect → Prop} {guards : Effect → Effect → Prop}

/-- Every effect of a kind stands right behind one that is its guard. -/
def Guarded (needs : Effect → Prop) (guards : Effect → Effect → Prop) (effects : List Effect) : Prop :=
  ∀ before effect after, effects = before ++ effect :: after → needs effect →
    ∃ earlier guard, before = earlier ++ [guard] ∧ guards guard effect

theorem guarded_nil : Guarded needs guards [] := by
  intro before effect after parts
  simp at parts

theorem guarded_append {first second : List Effect} (guarded : Guarded needs guards first)
    (guarded' : Guarded needs guards second) : Guarded needs guards (first ++ second) := by
  intro before effect after parts needed
  rcases List.append_eq_append_iff.mp parts with ⟨more,before_is,second_is⟩ | ⟨more,first_is,rest_is⟩
  · obtain ⟨earlier,guard,more_is,guarding⟩ := guarded' more effect after second_is needed
    exact ⟨first ++ earlier,guard,by rw [before_is,more_is,List.append_assoc],guarding⟩
  · cases more with
    | nil =>
      have second_is : second = [] ++ effect :: after := rest_is.symm
      obtain ⟨earlier,guard,none,-⟩ := guarded' [] effect after second_is needed
      simp at none
    | cons other more =>
      injection rest_is with same
      subst same
      exact guarded before effect more first_is needed

end Guarded

end StellarAlerts.Loops
