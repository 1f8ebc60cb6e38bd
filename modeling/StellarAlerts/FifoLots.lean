import Mathlib.Algebra.Order.Field.Basic
import Mathlib.Data.List.Induction
import Mathlib.Tactic.FieldSimp
import Mathlib.Tactic.Linarith
import Mathlib.Tactic.Ring

/-!
Queues of lots, bought for a cost and used up from the front, a part of a lot at the
lot's own price.
-/
namespace StellarAlerts.FifoLots
universe u
variable {K : Type u} [Field K]

structure Lot (K : Type u) where
  quantity : K
  cost : K

def units (lots : List (Lot K)) : K := (lots.map Lot.quantity).sum
def cost (lots : List (Lot K)) : K := (lots.map Lot.cost).sum

@[simp] theorem units_nil : units ([] : List (Lot K)) = 0 := rfl
@[simp] theorem units_cons (lot : Lot K) (later : List (Lot K)) : units (lot :: later) = lot.quantity + units later := rfl
@[simp] theorem units_append (a b : List (Lot K)) : units (a ++ b) = units a + units b := by simp [units]
@[simp] theorem cost_nil : cost ([] : List (Lot K)) = 0 := rfl
@[simp] theorem cost_cons (lot : Lot K) (later : List (Lot K)) : cost (lot :: later) = lot.cost + cost later := rfl
@[simp] theorem cost_append (a b : List (Lot K)) : cost (a ++ b) = cost a + cost b := by simp [cost]

section Taken
variable [LinearOrder K]

/-- What is left of a queue behind its first units. -/
def rest (x : K) : List (Lot K) → List (Lot K)
  | [] => []
  | lot :: later =>
    if x ≤ 0 then lot :: later
    else if x < lot.quantity then ⟨lot.quantity - x,lot.cost - x * (lot.cost / lot.quantity)⟩ :: later
    else rest (x - lot.quantity) later

/-- What the first units of a queue cost. -/
def costOf (x : K) : List (Lot K) → K
  | [] => 0
  | lot :: later =>
    if x ≤ 0 then 0
    else if x < lot.quantity then x * (lot.cost / lot.quantity)
    else lot.cost + costOf (x - lot.quantity) later

def Positive (lots : List (Lot K)) : Prop := ∀ lot ∈ lots, 0 < lot.quantity

variable {x y : K} {lots more : List (Lot K)}

theorem rest_nonpos (none : x ≤ 0) : rest x lots = lots := by
  cases lots with
  | nil => rfl
  | cons lot later => simp [rest,none]

theorem costOf_nonpos (none : x ≤ 0) : costOf x lots = 0 := by
  cases lots with
  | nil => rfl
  | cons lot later => simp [costOf,none]

/-- What is taken and what is left cost what there was. -/
theorem costOf_rest (x : K) (lots : List (Lot K)) : costOf x lots + cost (rest x lots) = cost lots := by
  induction lots generalizing x with
  | nil => simp [costOf,rest]
  | cons lot later ih =>
    by_cases none : x ≤ 0
    · simp [costOf,rest,none]
    by_cases part : x < lot.quantity
    · simp only [costOf,rest,if_neg none,if_pos part,cost_cons]
      ring
    · have behind := ih (x - lot.quantity)
      simp only [costOf,rest,if_neg none,if_neg part,cost_cons,← behind]
      ring

section Ordered
variable [IsStrictOrderedRing K]

theorem units_nonneg (positive : Positive lots) : 0 ≤ units lots := by
  induction lots with
  | nil => exact le_rfl
  | cons lot later ih =>
    have first := positive lot List.mem_cons_self
    have others := ih fun l listed => positive l (List.mem_cons_of_mem _ listed)
    rw [units_cons]
    linarith

theorem positive_rest (positive : Positive lots) : Positive (rest x lots) := by
  induction lots generalizing x with
  | nil => exact positive
  | cons lot later ih =>
    have others : Positive later := fun l listed => positive l (List.mem_cons_of_mem _ listed)
    by_cases none : x ≤ 0
    · rwa [rest_nonpos none]
    by_cases part : x < lot.quantity
    · simp only [rest,if_neg none,if_pos part]
      intro l listed
      rcases List.mem_cons.mp listed with rfl | listed
      · exact sub_pos.mpr part
      · exact others l listed
    · simp only [rest,if_neg none,if_neg part]
      exact ih others

theorem units_rest (some_ : 0 ≤ x) (positive : Positive lots) : units (rest x lots) = max 0 (units lots - x) := by
  induction lots generalizing x with
  | nil =>
    rw [rest,units_nil,max_eq_left]
    linarith
  | cons lot later ih =>
    have others : Positive later := fun l listed => positive l (List.mem_cons_of_mem _ listed)
    have behind := units_nonneg others
    have first := positive lot List.mem_cons_self
    by_cases none : x ≤ 0
    · rw [rest_nonpos none,units_cons,max_eq_right (by linarith)]
      linarith
    by_cases part : x < lot.quantity
    · simp only [rest,if_neg none,if_pos part,units_cons]
      rw [max_eq_right (by linarith)]
      ring
    · simp only [rest,if_neg none,if_neg part,units_cons]
      rw [ih (by linarith) others]
      congr 1
      ring

/-- Units taken one time after another are taken at once. -/
theorem rest_rest (some_ : 0 ≤ x) (more_ : 0 ≤ y) (positive : Positive lots) : rest y (rest x lots) = rest (x + y) lots := by
  induction lots generalizing x with
  | nil => rfl
  | cons lot later ih =>
    have others : Positive later := fun l listed => positive l (List.mem_cons_of_mem _ listed)
    have first := positive lot List.mem_cons_self
    by_cases none : x ≤ 0
    · have zero : x = 0 := le_antisymm none some_
      rw [rest_nonpos none,zero,zero_add]
    by_cases part : x < lot.quantity
    · by_cases nothing : y ≤ 0
      · have zero : y = 0 := le_antisymm nothing more_
        rw [rest_nonpos nothing,zero,add_zero]
      have both : ¬ x + y ≤ 0 := by
        intro little
        linarith
      have price : (lot.cost - x * (lot.cost / lot.quantity)) / (lot.quantity - x) = lot.cost / lot.quantity := by
        have left : lot.quantity - x ≠ 0 := (sub_pos.mpr part).ne'
        field_simp
      by_cases within : y < lot.quantity - x
      · have within' : x + y < lot.quantity := by linarith
        simp only [rest,if_neg none,if_pos part,if_neg nothing,if_pos within,if_neg both,if_pos within',price]
        congr 2
        · ring
        · ring
      · have beyond : ¬ x + y < lot.quantity := by
          intro less
          linarith
        simp only [rest,if_neg none,if_pos part,if_neg nothing,if_neg within,if_neg both,if_neg beyond]
        congr 1
        ring
    · have both : ¬ x + y ≤ 0 := by
        intro little
        linarith
      have beyond : ¬ x + y < lot.quantity := by
        intro less
        linarith
      simp only [rest,if_neg none,if_neg part,if_neg both,if_neg beyond]
      rw [ih (by linarith) others]
      congr 1
      ring

theorem rest_append (enough : x ≤ units lots) (positive : Positive lots) : rest x (lots ++ more) = rest x lots ++ more := by
  induction lots generalizing x with
  | nil => rw [List.nil_append,rest_nonpos enough,rest,List.nil_append]
  | cons lot later ih =>
    have others : Positive later := fun l listed => positive l (List.mem_cons_of_mem _ listed)
    by_cases none : x ≤ 0
    · rw [rest_nonpos none,rest_nonpos none]
    by_cases part : x < lot.quantity
    · simp only [List.cons_append,rest,if_neg none,if_pos part]
    · simp only [List.cons_append,rest,if_neg none,if_neg part]
      rw [units_cons] at enough
      exact ih (by linarith) others

theorem rest_all (all : units lots ≤ x) (positive : Positive lots) : rest x lots = [] := by
  induction lots generalizing x with
  | nil => rfl
  | cons lot later ih =>
    have others : Positive later := fun l listed => positive l (List.mem_cons_of_mem _ listed)
    have first := positive lot List.mem_cons_self
    have behind := units_nonneg others
    rw [units_cons] at all
    have none : ¬ x ≤ 0 := by
      intro little
      linarith
    have part : ¬ x < lot.quantity := by
      intro less
      linarith
    simp only [rest,if_neg none,if_neg part]
    exact ih (by linarith) others

end Ordered
end Taken

inductive Event (K : Type u) where
  | acquire (lot : Lot K)
  | dispose (amount : K)

def acquired (events : List (Event K)) : List (Lot K) :=
  events.filterMap fun
    | .acquire lot => some lot
    | .dispose _ => none

variable [LinearOrder K]

def Event.apply (queue : List (Lot K)) : Event K → List (Lot K)
  | .acquire lot => queue ++ [lot]
  | .dispose amount => rest amount queue

/-- The queue that a history leaves. -/
def held (events : List (Event K)) : List (Lot K) := events.foldl Event.apply []

/-- What each disposal of a history costs, in order. -/
def costs : List (Lot K) → List (Event K) → List K
  | _, [] => []
  | queue, .acquire lot :: later => costs (queue ++ [lot]) later
  | queue, .dispose amount :: later => costOf amount queue :: costs (rest amount queue) later

/-- The units that an event leaves: a disposal takes no more than there are. -/
def Event.leaves (open_ : K) : Event K → K
  | .acquire lot => open_ + lot.quantity
  | .dispose amount => max 0 (open_ - amount)

/-- The units a history leaves. -/
def leftUnits (events : List (Event K)) : K := events.foldl Event.leaves 0

/-- The units ever taken. -/
def taken (events : List (Event K)) : K := units (acquired events) - leftUnits events

@[simp] theorem held_concat (events : List (Event K)) (e : Event K) : held (events ++ [e]) = e.apply (held events) := by
  simp [held]
@[simp] theorem leftUnits_concat (events : List (Event K)) (e : Event K) : leftUnits (events ++ [e]) = e.leaves (leftUnits events) := by
  simp [leftUnits]

/-- Lots are bought with units, and disposals are of amounts. -/
def Event.Proper : Event K → Prop
  | .acquire lot => 0 < lot.quantity
  | .dispose amount => 0 ≤ amount

theorem positive_acquired {events : List (Event K)} (proper : ∀ e ∈ events, e.Proper) : Positive (acquired events) := by
  intro lot listed
  obtain ⟨e,member,is⟩ := List.mem_filterMap.mp listed
  have own := proper e member
  cases e with
  | acquire l =>
    obtain rfl := Option.some.inj is
    exact own
  | dispose amount => cases is

theorem costs_concat (queue : List (Lot K)) (events : List (Event K)) (e : Event K) :
    costs queue (events ++ [e]) = costs queue events ++ costs (events.foldl Event.apply queue) [e] := by
  induction events generalizing queue with
  | nil => rfl
  | cons first later ih =>
    cases first with
    | acquire lot => simp only [List.cons_append,costs,List.foldl_cons,Event.apply,ih]
    | dispose amount => simp only [List.cons_append,costs,List.foldl_cons,Event.apply,ih,List.cons_append]

theorem costs_held (events : List (Event K)) : (costs [] events).sum + cost (held events) = cost (acquired events) := by
  induction events using List.reverseRecOn with
  | nil => simp [costs,held,acquired]
  | append_singleton events e ih =>
    rw [costs_concat,List.sum_append,held_concat,acquired,List.filterMap_append,cost_append,← acquired,← ih]
    cases e with
    | acquire lot =>
      simp only [costs,List.sum_nil,Event.apply,cost_append,List.filterMap_cons,List.filterMap_nil,cost_cons,cost_nil]
      ring
    | dispose amount =>
      have parts := costOf_rest amount (held events)
      simp only [costs,List.sum_cons,List.sum_nil,Event.apply,List.filterMap_cons,List.filterMap_nil,cost_nil]
      rw [← parts,← held]
      ring

section Ordered
variable [IsStrictOrderedRing K] {events : List (Event K)}

theorem positive_held (proper : ∀ e ∈ events, e.Proper) : Positive (held events) := by
  induction events using List.reverseRecOn with
  | nil => exact fun _ listed => absurd listed List.not_mem_nil
  | append_singleton events e ih =>
    have before := ih fun e' listed => proper e' (List.mem_append_left _ listed)
    have own := proper e (List.mem_append_right _ (List.mem_singleton_self e))
    rw [held_concat]
    cases e with
    | acquire lot =>
      intro l listed
      rcases List.mem_append.mp listed with listed | listed
      · exact before l listed
      · rw [List.mem_singleton.mp listed]
        exact own
    | dispose amount => exact positive_rest before

theorem units_held (proper : ∀ e ∈ events, e.Proper) : units (held events) = leftUnits events := by
  induction events using List.reverseRecOn with
  | nil => rfl
  | append_singleton events e ih =>
    have before := fun e' (listed : e' ∈ events) => proper e' (List.mem_append_left _ listed)
    have own := proper e (List.mem_append_right _ (List.mem_singleton_self e))
    rw [held_concat,leftUnits_concat,← ih before]
    cases e with
    | acquire lot => simp [Event.apply,Event.leaves]
    | dispose amount => exact units_rest own (positive_held before)

theorem leftUnits_nonneg (proper : ∀ e ∈ events, e.Proper) : 0 ≤ leftUnits events := by
  rw [← units_held proper]
  exact units_nonneg (positive_held proper)

theorem taken_concat (e : Event K) : taken (events ++ [e]) = taken events +
    match e with
    | .acquire _ => 0
    | .dispose amount => min amount (leftUnits events) := by
  cases e with
  | acquire lot =>
    simp only [taken,acquired,List.filterMap_append,List.filterMap_cons,List.filterMap_nil,units_append,units_cons,units_nil,
      leftUnits_concat,Event.leaves]
    ring
  | dispose amount =>
    simp only [taken,acquired,List.filterMap_append,List.filterMap_cons,List.filterMap_nil,units_append,units_nil,
      leftUnits_concat,Event.leaves]
    rcases le_total amount (leftUnits events) with fits | more
    · rw [max_eq_right (by linarith),min_eq_left fits]
      ring
    · rw [max_eq_left (by linarith),min_eq_right more]
      ring

theorem taken_bounds (proper : ∀ e ∈ events, e.Proper) : 0 ≤ taken events ∧ taken events ≤ units (acquired events) := by
  have left := leftUnits_nonneg proper
  refine ⟨?_,by rw [taken]; linarith⟩
  induction events using List.reverseRecOn with
  | nil => simp [taken,acquired,leftUnits]
  | append_singleton events e ih =>
    have before := fun e' (listed : e' ∈ events) => proper e' (List.mem_append_left _ listed)
    have own := proper e (List.mem_append_right _ (List.mem_singleton_self e))
    have earlier := ih before (leftUnits_nonneg before)
    rw [taken_concat]
    cases e with
    | acquire lot => linarith
    | dispose amount => exact add_nonneg earlier (le_min own (leftUnits_nonneg before))

/-- What a history leaves is what is behind the units ever taken of all that was bought. -/
theorem held_eq (proper : ∀ e ∈ events, e.Proper) : held events = rest (taken events) (acquired events) := by
  induction events using List.reverseRecOn with
  | nil => rfl
  | append_singleton events e ih =>
    have before := fun e' (listed : e' ∈ events) => proper e' (List.mem_append_left _ listed)
    have own := proper e (List.mem_append_right _ (List.mem_singleton_self e))
    obtain ⟨least,most⟩ := taken_bounds before
    rw [held_concat,taken_concat,acquired,List.filterMap_append,← acquired,ih before]
    cases e with
    | acquire lot =>
      simp only [Event.apply,add_zero,List.filterMap_cons,List.filterMap_nil]
      rw [rest_append most (positive_acquired before)]
    | dispose amount =>
      have amount_ : 0 ≤ amount := own
      simp only [Event.apply,List.filterMap_cons,List.filterMap_nil,List.append_nil]
      rw [rest_rest least own (positive_acquired before)]
      rcases le_total amount (leftUnits events) with fits | more
      · rw [min_eq_left fits]
      · -- A disposal of more than there is takes all that is left.
        have all : taken events + leftUnits events = units (acquired events) := by
          rw [taken]
          ring
        rw [min_eq_right more,rest_all (by linarith) (positive_acquired before),
          rest_all all.ge (positive_acquired before)]

end Ordered
end StellarAlerts.FifoLots
