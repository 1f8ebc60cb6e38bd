import Mathlib.Order.Basic
import Mathlib.Data.List.Induction

/-!
Registers that take every value that is not below their own. Registers that are given
the same values agree if and only if there is a largest one and no other is as large
(`converges_iff`), and a register ignores what it was given before if and only if all
values are comparable (`idempotent_iff`).
-/
namespace StellarAlerts.MaxRegisters
universe u

variable {α : Type u} [Preorder α] [DecidableLE α]

/-- What the register holds once it is given a value. -/
def take (held : Option α) (x : α) : Option α :=
  match held with
  | none => some x
  | some y => if x ≤ y then some y else some x

/-- What the register holds after the values. -/
def held (values : List α) : Option α := values.foldl take none

/-- Whatever the order and however often each value is given, registers agree. -/
def Converges (values : List α) : Prop :=
  ∀ first second : List α, (∀ x, x ∈ first ↔ x ∈ values) → (∀ x, x ∈ second ↔ x ∈ values) → held first = held second

/-- A value that a register was given before leaves it as it is. -/
def Idempotent (values : List α) : Prop :=
  ∀ given : List α, (∀ x ∈ given, x ∈ values) → ∀ x ∈ given, held (given ++ [x]) = held given

def OneLargest (values : List α) : Prop := values = [] ∨ ∃ m ∈ values, ∀ x ∈ values, x ≤ m ∧ (m ≤ x → x = m)
def Comparable (values : List α) : Prop := ∀ x ∈ values, ∀ y ∈ values, x ≤ y ∨ y ≤ x

theorem held_concat (values : List α) (x : α) : held (values ++ [x]) = take (held values) x := by
  rw [held,List.foldl_append]
  rfl

theorem take_below {x y : α} (below : x ≤ y) : take (some y) x = some y := if_pos below

theorem take_cases (held : Option α) (x : α) : take held x = some x ∨ (take held x = held ∧ ∃ y, held = some y ∧ x ≤ y) := by
  cases held with
  | none => exact .inl rfl
  | some y =>
    by_cases below : x ≤ y
    · exact .inr ⟨take_below below,y,rfl,below⟩
    · exact .inl (if_neg below)

theorem le_of_take {x y : α} (stays : take (some y) x = some y) : x ≤ y := by
  rcases take_cases (some y) x with now | ⟨_,z,same,below⟩
  · rw [stays] at now
    exact le_of_eq (Option.some.inj now).symm
  · exact Option.some.inj same ▸ below

variable {m : α}

theorem held_mem {values : List α} (holds : held values = some m) : m ∈ values := by
  induction values using List.reverseRecOn with
  | nil => cases holds
  | append_singleton values x ih =>
    rw [held_concat] at holds
    rcases take_cases (held values) x with now | ⟨same,_⟩
    · rw [now] at holds
      obtain rfl := Option.some.inj holds
      exact List.mem_append_right _ (List.mem_singleton_self _)
    · exact List.mem_append_left _ (ih (same.symm.trans holds))

theorem held_isSome {values : List α} (some_ : values ≠ []) : ∃ m, held values = some m := by
  induction values using List.reverseRecOn with
  | nil => exact absurd rfl some_
  | append_singleton values x ih =>
    rw [held_concat]
    rcases take_cases (held values) x with now | ⟨same,y,holds,_⟩
    · exact ⟨x,now⟩
    · exact ⟨y,same.trans holds⟩

theorem foldl_above {values : List α} (above : ∀ x ∈ values, x ≤ m) : values.foldl take (some m) = some m := by
  induction values with
  | nil => rfl
  | cons x rest ih =>
    rw [List.foldl_cons,take_below (above x (List.mem_cons_self ..))]
    exact ih fun y listed => above y (List.mem_cons_of_mem x listed)

theorem held_largest {values : List α} (member : m ∈ values) (largest : ∀ x ∈ values, x ≤ m ∧ (m ≤ x → x = m)) :
    held values = some m := by
  obtain ⟨before,later,rfl⟩ := List.append_of_mem member
  have takes : take (held before) m = some m := by
    rcases take_cases (held before) m with now | ⟨same,y,holds,below⟩
    · exact now
    · have listed : y ∈ before ++ m :: later := List.mem_append_left _ (held_mem holds)
      rw [same,holds,(largest y listed).2 below]
  have above : ∀ x ∈ later, x ≤ m := fun x listed => (largest x (by simp [listed])).1
  rw [held,List.foldl_append,← held,List.foldl_cons,takes]
  exact foldl_above above

theorem converges_iff (values : List α) : Converges values ↔ OneLargest values := by
  constructor
  · intro converges
    by_cases none : values = []
    · exact .inl none
    · obtain ⟨m,holds⟩ := held_isSome none
      have member := held_mem holds
      -- A value that is given last is below what all registers hold.
      have below : ∀ x ∈ values, x ≤ m := by
        intro x listed
        have agree := converges (values ++ [x]) values (by simp +contextual [listed]) fun _ => Iff.rfl
        rw [held_concat,holds] at agree
        exact le_of_take agree
      refine .inr ⟨m,member,fun x listed => ⟨below x listed,fun above => ?_⟩⟩
      -- A value as large as that which is given first is never replaced.
      have agree := converges (x :: values) values (by simp +contextual [listed]) fun _ => Iff.rfl
      have stays : held (x :: values) = some x := foldl_above fun y member => (below y member).trans above
      rw [stays,holds] at agree
      exact Option.some.inj agree
  · rintro (rfl | ⟨m,member,largest⟩) first second covers also
    · have none : ∀ {given : List α}, (∀ x, x ∈ given ↔ x ∈ ([] : List α)) → given = [] := fun covers =>
        List.eq_nil_iff_forall_not_mem.mpr fun x listed => by cases (covers x).mp listed
      rw [none covers,none also]
    · rw [held_largest ((covers m).mpr member) fun x listed => largest x ((covers x).mp listed),
        held_largest ((also m).mpr member) fun x listed => largest x ((also x).mp listed)]

theorem le_held {values given : List α} (comparable : Comparable values) (among : ∀ x ∈ given, x ∈ values)
    (holds : held given = some m) : ∀ x ∈ given, x ≤ m := by
  induction given using List.reverseRecOn generalizing m with
  | nil => intro x listed; cases listed
  | append_singleton given y ih =>
    have earlier : ∀ x ∈ given, x ∈ values := fun x listed => among x (List.mem_append_left _ listed)
    have last : y ∈ values := among y (List.mem_append_right _ (List.mem_singleton_self _))
    rw [held_concat] at holds
    intro x listed
    cases before : held given with
    | none =>
      have empty : given = [] := by
        by_contra some_
        obtain ⟨z,now⟩ := held_isSome some_
        rw [before] at now
        cases now
      rw [before] at holds
      obtain rfl := Option.some.inj holds
      subst empty
      exact le_of_eq (List.mem_singleton.mp listed)
    | some z =>
      have above := ih earlier before
      rw [before] at holds
      rcases take_cases (some z) y with now | ⟨same,w,held,below⟩
      · rw [now] at holds
        obtain rfl := Option.some.inj holds
        rcases List.mem_append.mp listed with old | new
        · have higher : z ≤ y := by
            rcases comparable z (earlier z (held_mem before)) y last with le | le
            · exact le
            · rw [take_below le] at now
              exact le_of_eq (Option.some.inj now)
          exact (above x old).trans higher
        · exact le_of_eq (List.mem_singleton.mp new)
      · rw [same] at holds
        obtain rfl := Option.some.inj holds
        obtain rfl := Option.some.inj held
        rcases List.mem_append.mp listed with old | new
        · exact above x old
        · rw [List.mem_singleton.mp new]
          exact below

theorem idempotent_iff (values : List α) : Idempotent values ↔ Comparable values := by
  constructor
  · intro idempotent x first y second
    have again := idempotent [x,y] (by simp [first,second]) x (List.mem_cons_self ..)
    have two : held [x,y] = take (some x) y := rfl
    rw [held_concat,two] at again
    rcases take_cases (some x) y with now | ⟨_,z,same,below⟩
    · rw [now] at again
      exact .inl (le_of_take again)
    · exact .inr (Option.some.inj same ▸ below)
  · intro comparable given among x listed
    obtain ⟨m,holds⟩ := held_isSome (List.ne_nil_of_mem listed)
    rw [held_concat,holds]
    exact take_below (le_held comparable among holds x listed)

end StellarAlerts.MaxRegisters
