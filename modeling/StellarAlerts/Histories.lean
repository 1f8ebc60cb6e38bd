import Mathlib.Data.List.Induction
import Mathlib.Order.Basic

/-!
Histories of machines that answer every input and move on to a next state. A
history lists the transitions of a run in order; the rules here carry what one
step does to all of a run: an invariant (`run_inv`), a property of the past and
the present state (`history_rec`), a relation between earlier and later states
(`history_pairwise`).
-/
namespace StellarAlerts.Histories
universe u v w

structure Transition (State : Type u) (Input : Type v) (Answer : Type w) where
  before : State
  input : Input
  answer : Answer
  after : State

variable {State : Type u} {Input : Type v} {Answer : Type w}

def transition (step : State → Input → Answer × State) (s : State) (i : Input) : Transition State Input Answer :=
  ⟨s,i,(step s i).1,(step s i).2⟩

def run (step : State → Input → Answer × State) : State → List Input → State
  | s, [] => s
  | s, i :: rest => run step (step s i).2 rest

/-- The transitions of a run, in order. -/
def history (step : State → Input → Answer × State) : State → List Input → List (Transition State Input Answer)
  | _, [] => []
  | s, i :: rest => transition step s i :: history step (step s i).2 rest

variable {step : State → Input → Answer × State}

@[simp] theorem run_nil (s : State) : run step s [] = s := rfl
@[simp] theorem run_cons (s : State) (i : Input) (rest : List Input) :
    run step s (i :: rest) = run step (step s i).2 rest := rfl
@[simp] theorem history_nil (s : State) : history step s [] = [] := rfl
@[simp] theorem history_cons (s : State) (i : Input) (rest : List Input) :
    history step s (i :: rest) = transition step s i :: history step (step s i).2 rest := rfl

theorem run_append (s : State) (first second : List Input) :
    run step s (first ++ second) = run step (run step s first) second := by
  induction first generalizing s with
  | nil => rfl
  | cons i rest ih => exact ih (step s i).2

theorem history_append (s : State) (first second : List Input) :
    history step s (first ++ second) = history step s first ++ history step (run step s first) second := by
  induction first generalizing s with
  | nil => rfl
  | cons i rest ih =>
    simp only [List.cons_append,history_cons,run_cons]
    rw [ih (step s i).2]

theorem history_read {Reading : Type*} (read : Answer → Reading) (s : State) (inputs : List Input) :
    history (fun s i => (read (step s i).1,(step s i).2)) s inputs =
      (history step s inputs).map fun t => ⟨t.before,t.input,read t.answer,t.after⟩ := by
  induction inputs generalizing s with
  | nil => rfl
  | cons i rest ih => exact congrArg (_ :: ·) (ih (step s i).2)

theorem run_inv_of_mem {I : State → Prop} {inputs : List Input}
    (keeps : ∀ s, ∀ i ∈ inputs, I s → I (step s i).2) {s : State} (holds : I s) : I (run step s inputs) := by
  induction inputs generalizing s with
  | nil => exact holds
  | cons i rest ih =>
    exact ih (fun s j listed => keeps s j (List.mem_cons_of_mem i listed)) (keeps s i (List.mem_cons_self ..) holds)

theorem run_inv {I : State → Prop} (keeps : ∀ s i, I s → I (step s i).2) {s : State} (holds : I s)
    (inputs : List Input) : I (run step s inputs) :=
  run_inv_of_mem (fun s i _ => keeps s i) holds

variable {I : State → Prop} {s : State}

theorem history_keeps_iff {J : State → Prop} {Fits : State → Input → Prop} (sound : ∀ s i, J s → J (step s i).2)
    (keeps : ∀ s i, J s → I s → (I (step s i).2 ↔ Fits s i)) (isSound : J s) (holds : I s) (inputs : List Input) :
    (∀ t ∈ history step s inputs, I t.after) ↔ ∀ t ∈ history step s inputs, Fits t.before t.input := by
  induction inputs generalizing s with
  | nil => exact ⟨fun _ t listed => (List.not_mem_nil listed).elim,fun _ t listed => (List.not_mem_nil listed).elim⟩
  | cons i rest ih =>
    rw [history_cons,List.forall_mem_cons,List.forall_mem_cons]
    have first : I (step s i).2 ↔ Fits s i := keeps s i isSound holds
    constructor
    · rintro ⟨next,later⟩
      exact ⟨first.mp next,(ih (sound s i isSound) next).mp later⟩
    · rintro ⟨fits,later⟩
      exact ⟨first.mpr fits,(ih (sound s i isSound) (first.mpr fits)).mpr later⟩

/-- A property of the past transitions and the present state that every step carries on holds of every history. -/
theorem history_rec {P : List (Transition State Input Answer) → State → Prop} {start : State}
    (empty : P [] start)
    (next : ∀ past s i, P past s → P (past ++ [transition step s i]) (step s i).2) (inputs : List Input) :
    P (history step start inputs) (run step start inputs) := by
  induction inputs using List.reverseRecOn with
  | nil => exact empty
  | append_singleton inputs i ih =>
    rw [history_append,run_append]
    exact next _ _ i ih

variable {inputs : List Input} {earlier : List (Transition State Input Answer)} {t : Transition State Input Answer}

variable {later : List (Transition State Input Answer)}

theorem history_split {start : State} (split : history step start inputs = earlier ++ t :: later) :
    ∃ before i after, inputs = before ++ i :: after ∧ earlier = history step start before ∧
      t = transition step (run step start before) i ∧
      later = history step (step (run step start before) i).2 after := by
  induction inputs generalizing start earlier with
  | nil => simp at split
  | cons i rest ih =>
    cases earlier with
    | nil =>
      simp only [history_cons,List.nil_append,List.cons.injEq] at split
      exact ⟨[],i,rest,rfl,rfl,split.1.symm,split.2.symm⟩
    | cons first earlier =>
      simp only [history_cons,List.cons_append,List.cons.injEq] at split
      obtain ⟨before,j,after,inputsAre,earlierIs,tIs,laterIs⟩ := ih split.2
      refine ⟨i :: before,j,after,by simp [inputsAre],?_,tIs,laterIs⟩
      rw [history_cons,split.1,earlierIs]

theorem history_parts {start : State} (split : history step start inputs = earlier ++ later) :
    ∃ before after, inputs = before ++ after ∧ earlier = history step start before ∧
      later = history step (run step start before) after := by
  cases later with
  | nil =>
    rw [List.append_nil] at split
    exact ⟨inputs,[],(List.append_nil _).symm,split.symm,rfl⟩
  | cons t later =>
    obtain ⟨before,i,after,rfl,earlierIs,tIs,laterIs⟩ := history_split split
    refine ⟨before,i :: after,rfl,earlierIs,?_⟩
    rw [tIs,laterIs,history_cons]

theorem run_of_last {start : State} (split : history step start inputs = earlier ++ [t]) :
    run step start inputs = t.after := by
  obtain ⟨before,i,after,rfl,_,rfl,none⟩ := history_split split
  cases after with
  | nil =>
    rw [run_append]
    rfl
  | cons j rest => cases none

theorem mem_history {start : State} (member : t ∈ history step start inputs) :
    ∃ before i, t = transition step (run step start before) i := by
  obtain ⟨earlier,later,split⟩ := List.append_of_mem member
  obtain ⟨before,i,_,_,_,tIs,_⟩ := history_split split
  exact ⟨before,i,tIs⟩

theorem input_mem_of_history {start : State} (member : t ∈ history step start inputs) : t.input ∈ inputs := by
  obtain ⟨earlier,later,split⟩ := List.append_of_mem member
  obtain ⟨before,i,after,rfl,_,rfl,_⟩ := history_split split
  simp [transition]

/-- Where the steps of a run meet a condition under which they keep an invariant, it holds before and after each of them. -/
theorem history_inv {I : State → Prop} {M : State → Input → Prop}
    (keeps : ∀ s i, M s i → I s → I (step s i).2) {inputs : List Input} {s : State}
    (meets : ∀ t ∈ history step s inputs, M t.before t.input) (holds : I s) :
    ∀ t ∈ history step s inputs, I t.before ∧ I t.after := by
  induction inputs generalizing s with
  | nil => intro t member; cases member
  | cons i rest ih =>
    have first : M s i := meets (transition step s i) (List.mem_cons_self ..)
    intro t member
    rw [history_cons,List.mem_cons] at member
    rcases member with rfl | later
    · exact ⟨holds,keeps s i first holds⟩
    · exact ih (fun u listed => meets u (List.mem_cons_of_mem _ listed)) (keeps s i first holds) t later

/-- Where the steps of a run meet such a condition, the invariant holds at its end. -/
theorem run_inv_of_meets {M : State → Input → Prop} (keeps : ∀ s i, M s i → I s → I (step s i).2) {inputs : List Input}
    (meets : ∀ t ∈ history step s inputs, M t.before t.input) (holds : I s) : I (run step s inputs) := by
  induction inputs generalizing s with
  | nil => exact holds
  | cons i rest ih =>
    have first : M s i := meets (transition step s i) (List.mem_cons_self ..)
    exact ih (fun u listed => meets u (List.mem_cons_of_mem _ listed)) (keeps s i first holds)

theorem run_related {R : State → State → Prop} (refl : ∀ s, R s s) (trans : ∀ {a b c}, R a b → R b c → R a c)
    (keeps : ∀ s i, I s → I (step s i).2) (moves : ∀ s i, I s → R s (step s i).2) (holds : I s) (inputs : List Input) :
    R s (run step s inputs) := by
  induction inputs generalizing s with
  | nil => exact refl s
  | cons i rest ih => exact trans (moves s i holds) (ih (keeps s i holds))

/-- Such a relation relates what a transition left to what every later one found. -/
theorem history_pairwise {I : State → Prop} {R : State → State → Prop} (refl : ∀ s, R s s)
    (trans : ∀ {a b c}, R a b → R b c → R a c) (keeps : ∀ s i, I s → I (step s i).2)
    (moves : ∀ s i, I s → R s (step s i).2) {s : State} (holds : I s) (inputs : List Input) :
    (history step s inputs).Pairwise (fun t u => R t.after u.before) := by
  induction inputs generalizing s with
  | nil => exact List.Pairwise.nil
  | cons i rest ih =>
    refine List.Pairwise.cons ?_ (ih (keeps s i holds))
    intro u member
    obtain ⟨before,j,rfl⟩ := mem_history member
    exact run_related refl trans keeps moves (keeps s i holds) before

/-- What a kind of step marks for good in the states of an invariant, and finds unmarked whenever it is made,
    is made once for each key. -/
theorem history_once_of_inv {I : State → Prop} {Key : Type*} {E : Key → Transition State Input Answer → Prop}
    {Marked : Key → State → Prop} (keeps : ∀ s i, I s → I (step s i).2)
    (marks : ∀ s i key, I s → E key (transition step s i) → Marked key (step s i).2)
    (kept : ∀ s i key, I s → Marked key s → Marked key (step s i).2) {s : State} (holds : I s) {inputs : List Input}
    (unmarked : ∀ t ∈ history step s inputs, ∀ key, E key t → ¬ Marked key t.before) :
    (history step s inputs).Pairwise fun t u => ∀ key, E key t → ¬ E key u := by
  induction inputs generalizing s with
  | nil => exact List.Pairwise.nil
  | cons i rest ih =>
    refine List.Pairwise.cons ?_ (ih (keeps s i holds) fun t listed => unmarked t (List.mem_cons_of_mem _ listed))
    intro u listed key first second
    have fresh : ¬ Marked key u.before := unmarked u (List.mem_cons_of_mem _ listed) key second
    obtain ⟨before,j,rfl⟩ := mem_history listed
    have both : I (run step (step s i).2 before) ∧ Marked key (run step (step s i).2 before) :=
      run_inv (I := fun s => I s ∧ Marked key s) (fun s i both => ⟨keeps s i both.1,kept s i key both.1 both.2⟩)
        ⟨keeps s i holds,marks s i key holds first⟩ before
    exact fresh both.2

theorem history_once {Key : Type*} {E : Key → Transition State Input Answer → Prop} {Marked : Key → State → Prop}
    (marks : ∀ s i key, E key (transition step s i) → Marked key (step s i).2)
    (kept : ∀ s i key, Marked key s → Marked key (step s i).2) {s : State} {inputs : List Input}
    (unmarked : ∀ t ∈ history step s inputs, ∀ key, E key t → ¬ Marked key t.before) :
    (history step s inputs).Pairwise fun t u => ∀ key, E key t → ¬ E key u :=
  history_once_of_inv (I := fun _ => True) (fun _ _ _ => trivial) (fun s i key _ => marks s i key)
    (fun s i key _ => kept s i key) trivial unmarked

theorem run_last_write {Key : Type*} {Value : Type*} {marks : State → Key → Option Value}
    {written : Transition State Input Answer → Key → Option Value}
    (writes : ∀ s i key, marks (step s i).2 key = (written (transition step s i) key).or (marks s key))
    (start : State) (inputs : List Input) (key : Key) :
    marks (run step start inputs) key =
      ((history step start inputs).reverse.findSome? (written · key)).or (marks start key) := by
  refine history_rec (P := fun past s => marks s key = (past.reverse.findSome? (written · key)).or (marks start key))
    rfl ?_ inputs
  intro past s i same
  rw [writes,same,List.reverse_append,List.reverse_singleton,List.singleton_append,List.findSome?_cons]
  cases written (transition step s i) key <;> rfl

end StellarAlerts.Histories
