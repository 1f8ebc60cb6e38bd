import StellarAlerts.Histories
import StellarAlerts.RemoteCalls

/-!
Programs that run at once against one state. `Follows` checks a program call by call
against the places that its answers move it through; in every run the calls that a
thread has made place it, and it follows from there (`run_placed`).
-/
namespace StellarAlerts.Interleaving
open Histories RemoteCalls

/-- A program and the calls that it makes; each is answered by a value or an error. -/
inductive Program (Query : Type) (Value : Query → Type) (α : Type) where
  | returned (a : α)
  | call (q : Query) (next : Except String (Value q) → Program Query Value α)

variable {Query : Type} {Value : Query → Type} {α β : Type}

def Program.bind : Program Query Value α → (α → Program Query Value β) → Program Query Value β
  | .returned a, f => f a
  | .call q next, f => .call q fun answer => (next answer).bind f

instance : Monad (Program Query Value) where
  pure := .returned
  bind := .bind

/-- Programs that may throw. -/
abbrev Code (Query : Type) (Value : Query → Type) (α : Type) := ExceptT String (Program Query Value) α

/-- One call; an error answer is thrown. -/
def query (q : Query) : Code Query Value (Value q) := ExceptT.mk (.call q .returned)

/-- What was computed without a call. -/
def given (computed : Except String α) : Code Query Value α := ExceptT.mk (.returned computed)

/-- `try { ... } finally { ... }`. -/
def withFinally (body : Code Query Value α) (cleanup : Code Query Value Unit) : Code Query Value α :=
  ExceptT.mk (.bind body.run fun ended => .bind cleanup.run fun
    | .ok _ => .returned ended
    | .error e => .returned (.error e))

/-- What a body comes to, its error included. -/
def attempt (body : Code Query Value α) : Code Query Value (Except String α) :=
  ExceptT.mk (.bind body.run fun ended => .returned (.ok ended))

section Places
variable {Place : Type} (allowed : Place → Query → Prop) (after : Place → (q : Query) → Except String (Value q) → Place)

/-- From its place the program makes allowed calls only, wherever their answers move it, and it ends with the postcondition. -/
def Follows (post : α → Place → Prop) : Place → Program Query Value α → Prop
  | place, .returned a => post a place
  | place, .call q next => allowed place q ∧ ∀ answer, Follows post (after place q answer) (next answer)

/-- The call is allowed and moves the program nowhere. -/
def Stays (place : Place) (q : Query) : Prop := allowed place q ∧ ∀ answer, after place q answer = place

variable {allowed after}

variable {p : Program Query Value α}

variable {post : α → Place → Prop}

theorem follows_mono {post' : α → Place → Prop} (weaker : ∀ a place, post a place → post' a place) {place : Place}
    (follows : Follows allowed after post place p) : Follows allowed after post' place p := by
  induction p generalizing place with
  | returned a => exact weaker a place follows
  | call q next ih => exact ⟨follows.1,fun answer => ih answer (follows.2 answer)⟩

theorem follows_bind {post : β → Place → Prop} {place : Place} {f : α → Program Query Value β} :
    Follows allowed after post place (p.bind f) ↔
      Follows allowed after (fun a there => Follows allowed after post there (f a)) place p := by
  induction p generalizing place with
  | returned a => rfl
  | call q next ih =>
    simp only [Program.bind,Follows]
    exact and_congr_right fun _ => forall_congr' fun answer => ih answer

theorem follows_bind_iff {post : β → Place → Prop} {place : Place} {f : α → Program Query Value β} {ends : α → Place → Prop}
    (same : ∀ a there, Follows allowed after post there (f a) ↔ ends a there) :
    Follows allowed after post place (p.bind f) ↔ Follows allowed after ends place p :=
  follows_bind.trans ⟨follows_mono fun a there => (same a there).mp,follows_mono fun a there => (same a there).mpr⟩

theorem follows_free {place : Place} (stays : ∀ q, Stays allowed after place q) (fine : ∀ a, post a place)
    (p : Program Query Value α) : Follows allowed after post place p := by
  induction p with
  | returned a => exact fine a
  | call q next ih =>
    refine ⟨(stays q).1,fun answer => ?_⟩
    rw [(stays q).2]
    exact ih answer

section Throwing
variable {post : Except String β → Place → Prop} {place : Place}

@[simp] theorem follows_pure {b : β} :
    Follows allowed after post place (pure b : Code Query Value β).run ↔ post (.ok b) place := Iff.rfl
@[simp] theorem follows_throw {e : String} :
    Follows allowed after post place (throw e : Code Query Value β).run ↔ post (.error e) place := Iff.rfl

@[simp] theorem follows_query {q : Query} {post : Except String (Value q) → Place → Prop} :
    Follows allowed after post place (query q : Code Query Value (Value q)).run ↔
      allowed place q ∧ ∀ answer, post answer (after place q answer) := Iff.rfl

variable {x : Code Query Value α}

theorem follows_bindCode {f : α → Code Query Value β} :
    Follows allowed after post place (x >>= f).run ↔
      Follows allowed after (fun ended there => match ended with
        | .ok a => Follows allowed after post there (f a).run
        | .error e => post (.error e) there) place x.run := by
  refine follows_bind_iff fun ended there => ?_
  cases ended with
  | ok a => rfl
  | error e => rfl

theorem follows_asked {q : Query} {f : Value q → Code Query Value β} (asked : allowed place q)
    (refused : ∀ e, post (.error e) (after place q (.error e)))
    (answered : ∀ a, Follows allowed after post (after place q (.ok a)) (f a).run) :
    Follows allowed after post place (query q >>= f).run := by
  refine follows_bindCode.mpr ⟨asked,fun answer => ?_⟩
  cases answer with
  | error e => exact refused e
  | ok a => exact answered a

theorem follows_map {f : α → β} :
    Follows allowed after post place (f <$> x).run ↔
      Follows allowed after (fun ended there => post (ended.map f) there) place x.run := by
  refine follows_bind_iff fun ended there => ?_
  cases ended with
  | ok a => rfl
  | error e => rfl

theorem follows_tryCatch {x : Code Query Value β} {handler : String → Code Query Value β} :
    Follows allowed after post place (tryCatch x handler).run ↔
      Follows allowed after (fun ended there => match ended with
        | .ok a => post (.ok a) there
        | .error e => Follows allowed after post there (handler e).run) place x.run := by
  refine follows_bind_iff fun ended there => ?_
  cases ended with
  | ok a => rfl
  | error e => rfl

theorem follows_caught {body : Code Query Value Unit} {post : Except String Unit → Place → Prop} :
    Follows allowed after post place (tryCatch body fun _ => pure ()).run ↔
      Follows allowed after (fun _ there => post (.ok ()) there) place body.run := by
  refine follows_tryCatch.trans ⟨follows_mono ?_,follows_mono ?_⟩
  · intro ended there fine
    cases ended with
    | error e => exact fine
    | ok _ => exact fine
  · intro ended there fine
    cases ended with
    | error e => exact fine
    | ok _ => exact fine

theorem follows_attempt {body : Code Query Value α} {post : Except String (Except String α) → Place → Prop} :
    Follows allowed after post place (attempt body).run ↔
      Follows allowed after (fun ended there => post (.ok ended) there) place body.run :=
  follows_bind_iff fun _ _ => Iff.rfl

theorem follows_withFinally {body : Code Query Value β} {cleanup : Code Query Value Unit} :
    Follows allowed after post place (withFinally body cleanup).run ↔
      Follows allowed after (fun ended there => Follows allowed after (fun cleaned last => match cleaned with
        | .ok _ => post ended last
        | .error e => post (.error e) last) there cleanup.run) place body.run := by
  refine follows_bind_iff fun ended there => follows_bind_iff fun cleaned last => ?_
  cases cleaned with
  | ok _ => rfl
  | error e => rfl

end Throwing

section Returning
variable (allowed after)

/-- However the program ends, it is back. -/
def Returns (home : Place) (x : Code Query Value α) : Prop := Follows allowed after (fun _ place => place = home) home x.run

variable {allowed after} {home : Place}

theorem returns_pure (a : α) : Returns allowed after home (pure a : Code Query Value α) := rfl
theorem returns_throw (e : String) : Returns allowed after home (throw e : Code Query Value α) := rfl
theorem returns_given (computed : Except String α) : Returns allowed after home (given computed : Code Query Value α) := rfl
theorem returns_query {q : Query} (stays : Stays allowed after home q) : Returns allowed after home (query q) := stays

variable {x : Code Query Value α}

theorem returns_bind {f : α → Code Query Value β} (first : Returns allowed after home x)
    (second : ∀ a, Returns allowed after home (f a)) : Returns allowed after home (x >>= f) := by
  refine follows_bindCode.mpr (follows_mono ?_ first)
  rintro (e | a) place rfl
  · rfl
  · exact second a

theorem returns_map {f : α → β} (returns : Returns allowed after home x) : Returns allowed after home (f <$> x) :=
  follows_map.mpr (follows_mono (fun _ _ back => back) returns)

theorem returns_tryCatch {handler : String → Code Query Value α} (first : Returns allowed after home x)
    (second : ∀ e, Returns allowed after home (handler e)) : Returns allowed after home (tryCatch x handler) := by
  refine follows_tryCatch.mpr (follows_mono ?_ first)
  rintro (e | a) place rfl
  · exact second e
  · rfl

theorem returns_attempt {body : Code Query Value α} (returns : Returns allowed after home body) :
    Returns allowed after home (attempt body) := follows_attempt.mpr returns

end Returning
end Places

abbrev Answered (Query : Type) (Value : Query → Type) := (q : Query) × Except String (Value q)

/-- A program that runs: the calls that it has made and what it still has to do. -/
structure Thread (Query : Type) (Value : Query → Type) (α : Type) where
  made : List (Answered Query Value)
  rest : Program Query Value α

/-- A state and the programs that run on it, by number. -/
structure System (World : Type) (Query : Type) (Value : Query → Type) (α : Type) where
  world : World
  threads : Nat → Option (Thread Query Value α)

variable {World Task Outside : Type}

def System.start (w : World) : System World Query Value α := ⟨w,fun _ => none⟩

def System.put (s : System World Query Value α) (c : Nat) (t : Option (Thread Query Value α)) :
    System World Query Value α :=
  { s with threads := fun d => if d = c then t else s.threads d }

@[simp] theorem System.put_world (s : System World Query Value α) (c : Nat) (t : Option (Thread Query Value α)) :
    (s.put c t).world = s.world := rfl
def System.setWorld (s : System World Query Value α) (w : World) : System World Query Value α := { s with world := w }

@[simp] theorem System.setWorld_world (s : System World Query Value α) (w : World) : (s.setWorld w).world = w := rfl
@[simp] theorem System.setWorld_threads (s : System World Query Value α) (w : World) :
    (s.setWorld w).threads = s.threads := rfl

theorem System.put_threads (s : System World Query Value α) (c d : Nat) (t : Option (Thread Query Value α)) :
    (s.put c t).threads d = if d = c then t else s.threads d := rfl

theorem System.put_forall {s : System World Query Value α} {c : Nat} {new : Option (Thread Query Value α)}
    {P : Nat → Thread Query Value α → Prop} (own : ∀ t, new = some t → P c t)
    (others : ∀ d t, d ≠ c → s.threads d = some t → P d t) : ∀ d t, (s.put c new).threads d = some t → P d t := by
  intro d t running
  rw [System.put_threads] at running
  by_cases same : d = c
  · rw [if_pos same] at running
    rw [same]
    exact own t running
  · rw [if_neg same] at running
    exact others d t same running

inductive Input (Task Outside : Type) where
  | start (c : Nat) (task : Task)
  | proceed (c : Nat) (outcome : Outcome)
  | exit (c : Nat)
  | outside (o : Outside)

/-- The thread that an input is about. -/
def Input.number : Input Task Outside → Option Nat
  | .start c _ => some c
  | .proceed c _ => some c
  | .exit c => some c
  | .outside _ => none

section Machine
variable (exec : World → (q : Query) → Except String (Value q) × World)
  (program : Task → Program Query Value α) (outside : Outside → World → World)

/-- The answer to a call and the state that it leaves. -/
def respond (w : World) (q : Query) : Outcome → Except String (Value q) × World
  | .ok => exec w q
  | .failed message => (.error message,w)
  | .lost message => (.error message,(exec w q).2)

/-- A number whose program has not ended starts no other one. A step answers with the call that it carried out, if any. -/
def step (s : System World Query Value α) :
    Input Task Outside → Option (Answered Query Value) × System World Query Value α
  | .start c task =>
    match s.threads c with
    | some ⟨_,.call _ _⟩ => (none,s)
    | _ => (none,s.put c (some ⟨[],program task⟩))
  | .proceed c outcome =>
    match s.threads c with
    | some ⟨made,.call q next⟩ =>
      let (answer,world) := respond exec s.world q outcome
      (some ⟨q,answer⟩,(s.setWorld world).put c (some ⟨made ++ [⟨q,answer⟩],next answer⟩))
    | _ => (none,s)
  | .exit c => (none,s.put c none)
  | .outside o => (none,s.setWorld (outside o s.world))

/-- The thread stands at a call. -/
def System.At (s : System World Query Value α) (c : Nat) (q : Query) : Prop :=
  ∃ made next, s.threads c = some ⟨made,.call q next⟩

variable {s : System World Query Value α} {c : Nat}

theorem step_start (idle : ∀ q, ¬ s.At c q) (task : Task) :
    step exec program outside s (.start c task) = (none,s.put c (some ⟨[],program task⟩)) := by
  simp only [step]
  split
  · rename_i made q next standing
    exact absurd ⟨made,next,standing⟩ (idle q)
  · rfl

theorem step_cases (s : System World Query Value α) (i : Input Task Outside) :
    step exec program outside s i = (none,s) ∨
    (∃ c task, i = .start c task ∧ (∀ q, ¬ s.At c q) ∧
      step exec program outside s i = (none,s.put c (some ⟨[],program task⟩))) ∨
    (∃ c outcome made q next, i = .proceed c outcome ∧ s.threads c = some ⟨made,.call q next⟩ ∧
      step exec program outside s i = (some ⟨q,(respond exec s.world q outcome).1⟩,
        (s.setWorld (respond exec s.world q outcome).2).put c
          (some ⟨made ++ [⟨q,(respond exec s.world q outcome).1⟩],next (respond exec s.world q outcome).1⟩))) ∨
    (∃ c, i = .exit c ∧ step exec program outside s i = (none,s.put c none)) ∨
    ∃ o, i = .outside o ∧ step exec program outside s i = (none,s.setWorld (outside o s.world)) := by
  cases i with
  | start c task =>
    by_cases busy : ∃ q, s.At c q
    · obtain ⟨q,made,next,standing⟩ := busy
      exact .inl (by simp [step,standing])
    · have idle : ∀ q, ¬ s.At c q := fun q standing => busy ⟨q,standing⟩
      exact .inr (.inl ⟨c,task,rfl,idle,step_start exec program outside idle task⟩)
  | proceed c outcome =>
    by_cases busy : ∃ q, s.At c q
    · obtain ⟨q,made,next,standing⟩ := busy
      exact .inr (.inr (.inl ⟨c,outcome,made,q,next,rfl,standing,by simp [step,standing]⟩))
    · refine .inl ?_
      simp only [step]
      split
      · rename_i made q next standing
        exact absurd ⟨q,made,next,standing⟩ busy
      · rfl
  | exit c => exact .inr (.inr (.inr (.inl ⟨c,rfl,rfl⟩)))
  | outside o => exact .inr (.inr (.inr (.inr ⟨o,rfl,rfl⟩)))

variable {i : Input Task Outside}

theorem step_others (s : System World Query Value α) {d : Nat} (other : i.number ≠ some d) :
    (step exec program outside s i).2.threads d = s.threads d := by
  have apart : ∀ {c : Nat}, some c ≠ some d → d ≠ c := fun differ same => differ (by rw [same])
  rcases step_cases exec program outside s i with same | ⟨c,task,rfl,_,moved⟩ | ⟨c,outcome,made,q,next,rfl,_,moved⟩ |
    ⟨c,rfl,moved⟩ | ⟨o,rfl,moved⟩
  · rw [same]
  · rw [moved,System.put_threads,if_neg (apart other)]
  · rw [moved,System.put_threads,if_neg (apart other)]
    rfl
  · rw [moved,System.put_threads,if_neg (apart other)]
  · rw [moved]
    rfl

theorem step_world {I : World → Prop} (calls : ∀ w q, I w → I (exec w q).2) (besides : ∀ o w, I w → I (outside o w))
    {s : System World Query Value α} (holds : I s.world) (i : Input Task Outside) :
    I (step exec program outside s i).2.world := by
  rcases step_cases exec program outside s i with same | ⟨c,task,rfl,_,moved⟩ | ⟨c,outcome,made,q,next,rfl,_,moved⟩ |
    ⟨c,rfl,moved⟩ | ⟨o,rfl,moved⟩
  · rw [same]
    exact holds
  · rw [moved]
    exact holds
  · rw [moved]
    cases outcome with
    | failed message => exact holds
    | ok => exact calls s.world q holds
    | lost message => exact calls s.world q holds
  · rw [moved]
    exact holds
  · rw [moved]
    exact besides o s.world holds

/-- A step leaves the state, or it carries out a call, or something happens besides. -/
theorem world_cases (s : System World Query Value α) (i : Input Task Outside) :
    (step exec program outside s i).2.world = s.world ∨
    (∃ c outcome q, i = .proceed c outcome ∧ outcome.applied = true ∧ s.At c q ∧
      (step exec program outside s i).2.world = (exec s.world q).2) ∨
    ∃ o, i = .outside o ∧ (step exec program outside s i).2.world = outside o s.world := by
  rcases step_cases exec program outside s i with same | ⟨c,task,_,_,moved⟩ |
    ⟨c,outcome,made,q,next,isProceed,standing,moved⟩ | ⟨c,_,moved⟩ | ⟨o,isOutside,moved⟩
  · exact .inl (by rw [same])
  · exact .inl (by rw [moved,System.put_world])
  · cases outcome with
    | failed message => exact .inl (by rw [moved]; rfl)
    | ok => exact .inr (.inl ⟨c,_,q,isProceed,rfl,⟨made,next,standing⟩,by rw [moved]; rfl⟩)
    | lost message => exact .inr (.inl ⟨c,_,q,isProceed,rfl,⟨made,next,standing⟩,by rw [moved]; rfl⟩)
  · exact .inl (by rw [moved,System.put_world])
  · exact .inr (.inr ⟨o,isOutside,by rw [moved,System.setWorld_world]⟩)

/-- The call that a thread stands at. -/
def System.pending (s : System World Query Value α) (c : Nat) : Option Query :=
  match s.threads c with
  | some ⟨_,.call q _⟩ => some q
  | _ => none

variable {q : Query}

theorem pending_of_at (standing : s.At c q) : s.pending c = some q := by
  obtain ⟨made,next,running⟩ := standing
  simp [System.pending,running]

theorem at_of_pending (stands : s.pending c = some q) : s.At c q := by
  unfold System.pending at stands
  split at stands
  · rename_i made p next running
    obtain rfl := Option.some.inj stands
    exact ⟨made,next,running⟩
  · cases stands

/-- What a step that makes a call did. -/
theorem answer_cases {answer : Except String (Value q)} (answered : (step exec program outside s i).1 = some ⟨q,answer⟩) :
    ∃ c outcome, i = .proceed c outcome ∧ s.pending c = some q ∧ answer = (respond exec s.world q outcome).1 ∧
      (step exec program outside s i).2.world = (respond exec s.world q outcome).2 := by
  rcases step_cases exec program outside s i with same | ⟨c,task,_,_,moved⟩ |
    ⟨c,outcome,made,other,next,isProceed,standing,moved⟩ | ⟨c,_,moved⟩ | ⟨o,_,moved⟩
  · rw [same] at answered
    cases answered
  · rw [moved] at answered
    cases answered
  · rw [moved] at answered ⊢
    cases answered
    exact ⟨c,outcome,isProceed,pending_of_at ⟨made,next,standing⟩,rfl,rfl⟩
  · rw [moved] at answered
    cases answered
  · rw [moved] at answered
    cases answered

/-- What the program of a thread has returned. -/
def System.returned (s : System World Query Value α) (c : Nat) : Option α :=
  match s.threads c with
  | some ⟨_,.returned a⟩ => some a
  | _ => none

theorem thread_of_returned {a : α} (returned : s.returned c = some a) : ∃ made, s.threads c = some ⟨made,.returned a⟩ := by
  unfold System.returned at returned
  split at returned
  · rename_i made b running
    obtain rfl := Option.some.inj returned
    exact ⟨made,running⟩
  · cases returned

variable {t : Thread Query Value α}

/-- A thread that is neither started anew nor ended stays as it is, or its call is answered. -/
theorem thread_step (running : s.threads c = some t) (started : ∀ task, i ≠ .start c task) (ended : i ≠ .exit c) :
    (step exec program outside s i).2.threads c = some t ∨
      ∃ outcome made q next, t = ⟨made,.call q next⟩ ∧
        (step exec program outside s i).2.threads c =
          some ⟨made ++ [⟨q,(respond exec s.world q outcome).1⟩],next (respond exec s.world q outcome).1⟩ ∧
        (step exec program outside s i).2.world = (respond exec s.world q outcome).2 := by
  by_cases own : i.number = some c
  · cases i with
    | start d task =>
      obtain rfl := Option.some.inj own
      exact absurd rfl (started task)
    | exit d =>
      obtain rfl := Option.some.inj own
      exact absurd rfl ended
    | outside o => cases own
    | proceed d outcome =>
      obtain rfl := Option.some.inj own
      obtain ⟨made,rest⟩ := t
      cases rest with
      | returned a =>
        left
        simp only [step,running]
      | call q next =>
        right
        refine ⟨outcome,made,q,next,rfl,?_,?_⟩
        · simp [step,running,System.put_threads]
        · simp [step,running]
  · left
    rw [step_others exec program outside s own]
    exact running

theorem made_history (fresh : ∀ t, s.threads c = some t → t.made = []) (inputs : List (Input Task Outside)) :
    ∀ t, (run (step exec program outside) s inputs).threads c = some t → ∀ answered ∈ t.made,
      ∃ u ∈ history (step exec program outside) s inputs,
        (∃ outcome, u.input = .proceed c outcome) ∧ u.answer = some answered := by
  refine @history_rec _ _ _ (step exec program outside) (fun past s => ∀ t, s.threads c = some t → ∀ answered ∈ t.made,
    ∃ u ∈ past, (∃ outcome, u.input = .proceed c outcome) ∧ u.answer = some answered) s ?_ ?_ inputs
  · intro t running answered listed
    rw [fresh t running] at listed
    cases listed
  · intro past s i known t running answered listed
    have carry : ∀ t, s.threads c = some t → answered ∈ t.made →
        ∃ u ∈ past ++ [transition (step exec program outside) s i],
          (∃ outcome, u.input = .proceed c outcome) ∧ u.answer = some answered := by
      intro t running listed
      obtain ⟨u,member,own⟩ := known t running answered listed
      exact ⟨u,List.mem_append_left _ member,own⟩
    by_cases own : i.number = some c
    · rcases step_cases exec program outside s i with same | ⟨d,task,rfl,_,moved⟩ |
        ⟨d,outcome,made,q,next,rfl,standing,moved⟩ | ⟨d,rfl,moved⟩ | ⟨o,rfl,moved⟩
      · rw [same] at running
        exact carry t running listed
      · obtain rfl := Option.some.inj own
        rw [moved,System.put_threads,if_pos rfl] at running
        obtain rfl := Option.some.inj running
        cases listed
      · obtain rfl := Option.some.inj own
        rw [moved,System.put_threads,if_pos rfl] at running
        obtain rfl := Option.some.inj running
        rcases List.mem_append.mp listed with earlier | last
        · exact carry _ standing earlier
        · obtain rfl := List.mem_singleton.mp last
          exact ⟨_,List.mem_append_right _ (List.mem_singleton_self _),⟨outcome,rfl⟩,by rw [transition,moved]⟩
      · obtain rfl := Option.some.inj own
        rw [moved,System.put_threads,if_pos rfl] at running
        cases running
      · cases own
    · rw [step_others exec program outside s own] at running
      exact carry t running listed

/-- What a program comes to whose next calls are carried out while no other runs. -/
def alone : Nat → World → Program Query Value α → World × Program Query Value α
  | 0, w, p => (w,p)
  | _ + 1, w, .returned a => (w,.returned a)
  | n + 1, w, .call q next => alone n (exec w q).2 (next (exec w q).1)

theorem run_alone (running : s.threads c = some t) (n : Nat) :
    (run (step exec program outside) s (List.replicate n (.proceed c .ok))).world = (alone exec n s.world t.rest).1 ∧
      ∃ made, (run (step exec program outside) s (List.replicate n (.proceed c .ok))).threads c =
        some ⟨made,(alone exec n s.world t.rest).2⟩ := by
  induction n generalizing s t with
  | zero => exact ⟨rfl,t.made,running⟩
  | succ n ih =>
    obtain ⟨made,rest⟩ := t
    cases rest with
    | returned a =>
      have stays : step exec program outside s (.proceed c .ok) = (none,s) := by simp [step,running]
      rw [List.replicate_succ,run_cons,stays]
      have later := ih running
      cases n with
      | zero => exact later
      | succ n => exact later
    | call q next =>
      have moved : step exec program outside s (.proceed c .ok) = (some ⟨q,(exec s.world q).1⟩,
          (s.setWorld (exec s.world q).2).put c (some ⟨made ++ [⟨q,(exec s.world q).1⟩],next (exec s.world q).1⟩)) := by
        simp [step,running,respond]
      have now : ((s.setWorld (exec s.world q).2).put c (some ⟨made ++ [⟨q,(exec s.world q).1⟩],next (exec s.world q).1⟩)).threads c =
          some ⟨made ++ [⟨q,(exec s.world q).1⟩],next (exec s.world q).1⟩ := by rw [System.put_threads,if_pos rfl]
      rw [List.replicate_succ,run_cons,moved]
      exact ih now

end Machine

section Solo
variable (exec : World → (q : Query) → Except String (Value q) × World)

/-- The program ends so, with the state that it leaves, where no other runs; each call may be refused or lose its answer. -/
inductive Finishes : World → Program Query Value α → World → α → Prop where
  | returned (w : World) (a : α) : Finishes w (.returned a) w a
  | call {w w' : World} {q : Query} {next : Except String (Value q) → Program Query Value α} {a : α} (outcome : Outcome)
      (rest : Finishes (respond exec w q outcome).2 (next (respond exec w q outcome).1) w' a) : Finishes w (.call q next) w' a

/-- How it ends where every call is carried out. -/
def solo : World → Program Query Value α → World × α
  | w, .returned a => (w,a)
  | w, .call q next => solo (exec w q).2 (next (exec w q).1)

variable {exec} {w w' : World}

theorem finishes_solo (w : World) (p : Program Query Value α) : Finishes exec w p (solo exec w p).1 (solo exec w p).2 := by
  induction p generalizing w with
  | returned a => exact .returned w a
  | call q next ih => exact .call .ok (ih (exec w q).1 (exec w q).2)

variable {a : α}

theorem finishes_returned {b : α} : Finishes exec w (.returned a) w' b ↔ w' = w ∧ b = a := by
  constructor
  · intro finishes
    cases finishes
    exact ⟨rfl,rfl⟩
  · rintro ⟨rfl,rfl⟩
    exact .returned w' b

theorem finishes_call {q : Query} {next : Except String (Value q) → Program Query Value α} :
    Finishes exec w (.call q next) w' a ↔
      ∃ outcome, Finishes exec (respond exec w q outcome).2 (next (respond exec w q outcome).1) w' a := by
  constructor
  · intro finishes
    cases finishes with
    | call outcome rest => exact ⟨outcome,rest⟩
  · rintro ⟨outcome,rest⟩
    exact .call outcome rest

variable {p : Program Query Value α}

theorem finishes_bind {f : α → Program Query Value β} {b : β} :
    Finishes exec w (p.bind f) w' b ↔ ∃ there a, Finishes exec w p there a ∧ Finishes exec there (f a) w' b := by
  induction p generalizing w with
  | returned a => simp [Program.bind,finishes_returned]
  | call q next ih =>
    simp only [Program.bind,finishes_call,ih]
    constructor
    · rintro ⟨outcome,there,a,first,rest⟩
      exact ⟨there,a,⟨outcome,first⟩,rest⟩
    · rintro ⟨there,a,⟨outcome,first⟩,rest⟩
      exact ⟨outcome,there,a,first,rest⟩

theorem finishes_bindCode {x : Code Query Value α} {f : α → Code Query Value β} {ended : Except String β} :
    Finishes exec w (x >>= f).run w' ended ↔ ∃ there first, Finishes exec w x.run there first ∧
      (match first with
        | .ok a => Finishes exec there (f a).run w' ended
        | .error e => w' = there ∧ ended = .error e) := by
  refine finishes_bind.trans (exists_congr fun there => exists_congr fun first => and_congr_right fun _ => ?_)
  cases first with
  | ok a => rfl
  | error e => exact finishes_returned

theorem finishes_withFinally {body : Code Query Value α} {cleanup : Code Query Value Unit} {ended : Except String α} :
    Finishes exec w (withFinally body cleanup).run w' ended ↔ ∃ there result cleaned, Finishes exec w body.run there result ∧
      Finishes exec there cleanup.run w' cleaned ∧ ended = (match cleaned with
        | .ok _ => result
        | .error e => .error e) := by
  refine finishes_bind.trans (exists_congr fun there => exists_congr fun result => ?_)
  constructor
  · rintro ⟨first,rest⟩
    obtain ⟨last,cleaned,second,final⟩ := finishes_bind.mp rest
    cases cleaned with
    | ok _ =>
      obtain ⟨rfl,rfl⟩ := finishes_returned.mp final
      exact ⟨.ok (),first,second,rfl⟩
    | error e =>
      obtain ⟨rfl,rfl⟩ := finishes_returned.mp final
      exact ⟨.error e,first,second,rfl⟩
  · rintro ⟨cleaned,first,second,rfl⟩
    refine ⟨first,finishes_bind.mpr ⟨w',cleaned,second,?_⟩⟩
    cases cleaned with
    | ok _ => exact .returned _ _
    | error e => exact .returned _ _

theorem finishes_keeps {Place : Type} {allowed : Place → Query → Prop}
    {after : Place → (q : Query) → Except String (Value q) → Place} {post : α → Place → Prop} {place : Place}
    {I : World → Prop} (keeps : ∀ place q w outcome, allowed place q → I w → I (respond exec w q outcome).2)
    (follows : Follows allowed after post place p) (finishes : Finishes exec w p w' a) (holds : I w) : I w' := by
  induction finishes generalizing place with
  | returned w a => exact holds
  | call outcome _ ih => exact ih (follows.2 _) (keeps place _ _ outcome follows.1 holds)

/-- How a program that follows its calls ends. -/
theorem finishes_ends {Place : Type} {allowed : Place → Query → Prop}
    {after : Place → (q : Query) → Except String (Value q) → Place} {post : α → Place → Prop} {place : Place}
    (follows : Follows allowed after post place p) (finishes : Finishes exec w p w' a) : ∃ there, post a there := by
  induction finishes generalizing place with
  | returned w a => exact ⟨place,follows⟩
  | call outcome _ ih => exact ih (follows.2 _)

end Solo

section Calls
variable (exec : World → (q : Query) → Except String (Value q) × World)
  (program : Task → Program Query Value α) (outside : Outside → World → World)

/-- A call that started when its number was free has ended, with the answers that it was given. -/
structure Completes (s : System World Query Value α) (c : Nat) (task : Task) (inputs : List (Input Task Outside))
    (made : List (Answered Query Value)) (ended : α) : Prop where
  idle : ∀ q, ¬ s.At c q
  started : ∀ task, .start c task ∉ inputs
  exited : .exit c ∉ inputs
  returned : (run (step exec program outside) s (.start c task :: inputs)).threads c = some ⟨made,.returned ended⟩

variable {s : System World Query Value α}

theorem start_threads {c : Nat} (idle : ∀ q, ¬ s.At c q) (task : Task) :
    (step exec program outside s (.start c task)).2.threads c = some ⟨[],program task⟩ := by
  rw [step_start exec program outside idle task,System.put_threads,if_pos rfl]

variable {inputs : List (Input Task Outside)}

/-- What holds of a thread and the steps since its start, while others move and whenever its own
    call is answered, holds of it after every run in which it is neither started anew nor ended. -/
theorem thread_rec {I : System World Query Value α → Prop}
    {P : List (Transition (System World Query Value α) (Input Task Outside) (Option (Answered Query Value))) →
      Thread Query Value α → Prop}
    {c : Nat} {t : Thread Query Value α} (running : s.threads c = some t) (holds : I s)
    (keeps : ∀ s i, I s → I (step exec program outside s i).2) (first : P [] t)
    (waits : ∀ past u t, P past t → P (past ++ [u]) t)
    (moves : ∀ past s outcome made q next, I s → s.threads c = some ⟨made,.call q next⟩ → P past ⟨made,.call q next⟩ →
      P (past ++ [transition (step exec program outside) s (.proceed c outcome)])
        ⟨made ++ [⟨q,(respond exec s.world q outcome).1⟩],next (respond exec s.world q outcome).1⟩)
    (started : ∀ task, .start c task ∉ inputs) (ended : .exit c ∉ inputs) :
    ∃ t, (run (step exec program outside) s inputs).threads c = some t ∧
      P (history (step exec program outside) s inputs) t := by
  induction inputs using List.reverseRecOn with
  | nil => exact ⟨t,running,first⟩
  | append_singleton inputs i ih =>
    obtain ⟨u,now,sofar⟩ := ih (fun task listed => started task (List.mem_append_left _ listed))
      fun listed => ended (List.mem_append_left _ listed)
    have inv : I (run (step exec program outside) s inputs) := run_inv keeps holds inputs
    rw [run_append,history_append,run_cons,run_nil,history_cons,history_nil]
    generalize run (step exec program outside) s inputs = s' at now inv ⊢
    by_cases own : i.number = some c
    · cases i with
      | start d task =>
        obtain rfl := Option.some.inj own
        exact absurd (by simp) (started task)
      | exit d =>
        obtain rfl := Option.some.inj own
        exact absurd (by simp) ended
      | outside o => cases own
      | proceed d outcome =>
        obtain rfl := Option.some.inj own
        obtain ⟨made,rest⟩ := u
        cases rest with
        | returned a =>
          refine ⟨⟨made,.returned a⟩,?_,waits _ _ _ sofar⟩
          simp only [step,now]
        | call q next =>
          refine ⟨_,?_,moves _ s' outcome made q next inv now sofar⟩
          simp [step,now,System.put_threads]
    · refine ⟨u,?_,waits _ _ _ sofar⟩
      rw [step_others exec program outside s' own]
      exact now

theorem run_others {d : Nat} (others : ∀ i ∈ inputs, i.number ≠ some d) :
    (run (step exec program outside) s inputs).threads d = s.threads d :=
  run_inv_of_mem (I := fun u => u.threads d = s.threads d)
    (fun u i listed same => (step_others exec program outside u (others i listed)).trans same) rfl

theorem idle_run {d : Nat} (others : ∀ i ∈ inputs, i.number ≠ some d) (idle : ∀ q, ¬ s.At d q) (q : Query) :
    ¬ (run (step exec program outside) s inputs).At d q := by
  rintro ⟨made,next,running⟩
  rw [run_others exec program outside others] at running
  exact idle q ⟨made,next,running⟩

end Calls

section Placed
variable {Place : Type} (allowed : Place → Query → Prop) (after : Place → (q : Query) → Except String (Value q) → Place)
  (post : α → Place → Prop) (first : Place)

/-- Where its calls have brought a thread. -/
def Thread.place (t : Thread Query Value α) : Place :=
  t.made.foldl (fun place answered => after place answered.1 answered.2) first

@[simp] theorem Thread.place_start (p : Program Query Value α) : (Thread.mk [] p).place after first = first := rfl

theorem Thread.place_append (made : List (Answered Query Value)) (q : Query) (answer : Except String (Value q))
    (p p' : Program Query Value α) :
    (Thread.mk (made ++ [⟨q,answer⟩]) p').place after first = after ((Thread.mk made p).place after first) q answer := by
  simp [Thread.place,List.foldl_append]

def System.places (s : System World Query Value α) (c : Nat) : Option Place :=
  (s.threads c).map (Thread.place after first)

theorem System.places_put (s : System World Query Value α) (c : Nat) (t : Option (Thread Query Value α)) :
    (s.put c t).places after first = Function.update (s.places after first) c (t.map (Thread.place after first)) := by
  funext d
  by_cases own : d = c
  · subst own
    simp [System.places,System.put_threads]
  · simp [System.places,System.put_threads,own]

/-- Every thread follows from its place. -/
def Placed (s : System World Query Value α) : Prop :=
  ∀ c t, s.threads c = some t → Follows allowed after post (t.place after first) t.rest

variable {allowed after post first} {exec : World → (q : Query) → Except String (Value q) × World}
  {program : Task → Program Query Value α} {outside : Outside → World → World}

theorem placed_start (w : World) : Placed allowed after post first (System.start w : System World Query Value α) := by
  intro c t running
  cases running

variable {s : System World Query Value α}

theorem placed_pending (placed : Placed allowed after post first s) {c : Nat} {q : Query} (stands : s.pending c = some q) :
    ∃ place, s.places after first c = some place ∧ allowed place q := by
  obtain ⟨made,next,running⟩ := at_of_pending stands
  refine ⟨(Thread.mk made (.call q next)).place after first,?_,(placed c _ running).1⟩
  rw [System.places,running]
  rfl

theorem placed_step_of (placed : Placed allowed after post first s) {i : Input Task Outside}
    (starts : ∀ c task, i = .start c task → Follows allowed after post first (program task)) :
    Placed allowed after post first (step exec program outside s i).2 := by
  rcases step_cases exec program outside s i with same | ⟨c,task,isStart,_,moved⟩ |
    ⟨c,outcome,made,q,next,rfl,standing,moved⟩ | ⟨c,rfl,moved⟩ | ⟨o,rfl,moved⟩
  · rw [same]
    exact placed
  · rw [moved]
    refine System.put_forall ?_ fun d t _ => placed d t
    rintro t ⟨⟩
    exact starts c task isStart
  · rw [moved]
    refine System.put_forall ?_ fun d t _ => placed d t
    rintro t ⟨⟩
    rw [Thread.place_append after first made q _ (.call q next)]
    exact (placed c _ standing).2 _
  · rw [moved]
    refine System.put_forall ?_ fun d t _ => placed d t
    rintro t ⟨⟩
  · rw [moved]
    exact placed

theorem placed_step (starts : ∀ task, Follows allowed after post first (program task))
    (placed : Placed allowed after post first s) (i : Input Task Outside) :
    Placed allowed after post first (step exec program outside s i).2 :=
  placed_step_of placed fun _ task _ => starts task

theorem run_placed (starts : ∀ task, Follows allowed after post first (program task)) (w : World)
    (inputs : List (Input Task Outside)) :
    Placed allowed after post first (run (step exec program outside) (System.start w) inputs) :=
  @run_inv _ _ _ _ (Placed allowed after post first) (fun _ i placed => placed_step starts placed i) _
    (placed_start w) inputs

theorem run_started {may : Task → Place → Query → Prop} {ends : Task → α → Place → Prop}
    (starts : ∀ task, Follows (may task) after (ends task) first (program task)) (w : World) (inputs : List (Input Task Outside)) :
    ∀ c t, (run (step exec program outside) (System.start w) inputs).threads c = some t →
      ∃ before task later, inputs = before ++ .start c task :: later ∧
        Follows (may task) after (ends task) (t.place after first) t.rest := by
  induction inputs using List.reverseRecOn with
  | nil =>
    intro c t running
    cases running
  | append_singleton inputs i ih =>
    have earlier : ∀ c t, (run (step exec program outside) (System.start w) inputs).threads c = some t →
        ∃ before task later, inputs ++ [i] = before ++ .start c task :: later ∧
          Follows (may task) after (ends task) (t.place after first) t.rest := by
      intro c t running
      obtain ⟨before,task,later,rfl,follows⟩ := ih c t running
      exact ⟨before,task,later ++ [i],by simp,follows⟩
    rw [run_append,run_cons,run_nil]
    rcases step_cases exec program outside (run (step exec program outside) (System.start w) inputs) i with same |
      ⟨c,task,rfl,_,moved⟩ | ⟨c,outcome,made,q,next,rfl,standing,moved⟩ | ⟨c,rfl,moved⟩ | ⟨o,rfl,moved⟩
    · rw [same]
      exact earlier
    · rw [moved]
      refine System.put_forall ?_ fun d t _ => earlier d t
      rintro t ⟨⟩
      exact ⟨inputs,task,[],rfl,starts task⟩
    · rw [moved]
      refine System.put_forall ?_ fun d t _ => earlier d t
      rintro t ⟨⟩
      obtain ⟨before,task,later,split,follows⟩ := earlier c _ standing
      rw [Thread.place_append after first made q _ (.call q next)]
      exact ⟨before,task,later,split,follows.2 _⟩
    · rw [moved]
      refine System.put_forall ?_ fun d t _ => earlier d t
      rintro t ⟨⟩
    · rw [moved]
      exact earlier

/-- A thread that is neither started anew nor ended goes on following, and an invariant of the state says what it may learn. -/
theorem follows_learning {c : Nat} {s : System World Query Value α} {I : World → Prop} {P : Place → Prop}
    (calls : ∀ w q, I w → I (exec w q).2) (besides : ∀ o w, I w → I (outside o w))
    (learns : ∀ w q outcome place, I w → P place → P (after place q (respond exec w q outcome).1)) (holds : I s.world)
    (follows : ∃ t, s.threads c = some t ∧ Follows allowed after post (t.place after first) t.rest ∧ P (t.place after first))
    {inputs : List (Input Task Outside)} (started : ∀ task, .start c task ∉ inputs) (ended : .exit c ∉ inputs) :
    ∃ t, (run (step exec program outside) s inputs).threads c = some t ∧
      Follows allowed after post (t.place after first) t.rest ∧ P (t.place after first) := by
  refine (@run_inv_of_mem _ _ _ _ (fun s => I s.world ∧ ∃ t, s.threads c = some t ∧
    Follows allowed after post (t.place after first) t.rest ∧ P (t.place after first))
    inputs (fun s i listed => ?_) s ⟨holds,follows⟩).2
  rintro ⟨holds,t,running,follows,known⟩
  have unstarted : ∀ task, i ≠ .start c task := fun task same => started task (same ▸ listed)
  have unended : i ≠ .exit c := fun same => ended (same ▸ listed)
  refine ⟨step_world exec program outside calls besides holds i,?_⟩
  rcases thread_step exec program outside running unstarted unended with kept | ⟨outcome,made,q,next,rfl,moved,_⟩
  · exact ⟨t,kept,follows,known⟩
  · refine ⟨_,moved,?_⟩
    rw [Thread.place_append after first made q _ (.call q next)]
    exact ⟨follows.2 _,learns s.world q outcome _ holds known⟩

theorem follows_run {c : Nat} {s : System World Query Value α}
    (follows : ∃ t, s.threads c = some t ∧ Follows allowed after post (t.place after first) t.rest)
    {inputs : List (Input Task Outside)} (started : ∀ task, .start c task ∉ inputs) (ended : .exit c ∉ inputs) :
    ∃ t, (run (step exec program outside) s inputs).threads c = some t ∧
      Follows allowed after post (t.place after first) t.rest := by
  obtain ⟨t,running,follows⟩ := follows
  obtain ⟨t',running',follows',-⟩ := @follows_learning _ _ _ _ _ _ _ _ after post first exec program outside c s (fun _ => True)
    (fun _ => True) (fun _ _ _ => trivial) (fun _ _ _ => trivial) (fun _ _ _ _ _ _ => trivial) trivial
    ⟨t,running,follows,trivial⟩ inputs started ended
  exact ⟨t',running',follows'⟩

/-- All that a step can do to the state and to the places of the threads, which forget the programs. -/
theorem placed_cases {s : System World Query Value α} (placed : Placed allowed after post first s)
    (i : Input Task Outside) :
    step exec program outside s i = (none,s) ∨
    (∃ c task, i = .start c task ∧ (∀ p, s.places after first c = some p → ∃ a, post a p) ∧
      (step exec program outside s i).1 = none ∧ (step exec program outside s i).2.world = s.world ∧
      (step exec program outside s i).2.places after first =
        Function.update (s.places after first) c (some first)) ∨
    (∃ c outcome p q, i = .proceed c outcome ∧ s.At c q ∧ s.places after first c = some p ∧ allowed p q ∧
      (step exec program outside s i).1 = some ⟨q,(respond exec s.world q outcome).1⟩ ∧
      (step exec program outside s i).2.world = (respond exec s.world q outcome).2 ∧
      (step exec program outside s i).2.places after first =
        Function.update (s.places after first) c (some (after p q (respond exec s.world q outcome).1))) ∨
    (∃ c, i = .exit c ∧ (step exec program outside s i).1 = none ∧
      (step exec program outside s i).2.world = s.world ∧
      (step exec program outside s i).2.places after first = Function.update (s.places after first) c none) ∨
    ∃ o, i = .outside o ∧ (step exec program outside s i).1 = none ∧
      (step exec program outside s i).2.world = outside o s.world ∧
      (step exec program outside s i).2.places after first = s.places after first := by
  rcases step_cases exec program outside s i with same | ⟨c,task,isStart,idle,moved⟩ |
    ⟨c,outcome,made,q,next,isProceed,standing,moved⟩ | ⟨c,isExit,moved⟩ | ⟨o,isOutside,moved⟩
  · exact .inl same
  · refine .inr (.inl ⟨c,task,isStart,?_,by rw [moved],by rw [moved]; rfl,by rw [moved,System.places_put]; rfl⟩)
    intro p atPlace
    obtain ⟨t,running,rfl⟩ := Option.map_eq_some_iff.mp atPlace
    have follows := placed c t running
    cases ended : t.rest with
    | returned a =>
      rw [ended] at follows
      exact ⟨a,follows⟩
    | call q next => exact absurd ⟨t.made,next,by rw [running,← ended]⟩ (idle q)
  · refine .inr (.inr (.inl ⟨c,outcome,(Thread.mk made (.call q next)).place after first,q,isProceed,
      ⟨made,next,standing⟩,by rw [System.places,standing]; rfl,(placed c _ standing).1,by rw [moved],
      by rw [moved]; rfl,?_⟩))
    rw [moved,System.places_put,Option.map_some,Thread.place_append after first made q _ (.call q next)]
    rfl
  · exact .inr (.inr (.inr (.inl ⟨c,isExit,by rw [moved],by rw [moved]; rfl,by rw [moved,System.places_put]; rfl⟩)))
  · exact .inr (.inr (.inr (.inr ⟨o,isOutside,by rw [moved],by rw [moved]; rfl,by rw [moved]; rfl⟩)))

end Placed

section Process
variable (exec : World → (q : Query) → Except String (Value q) × World)
  (program : Task → Program Query Value α) (outside : Outside → World → World) (memory : Query → Bool)

/-- What happens to the calls of one process: none of them is ended from outside. -/
inductive Event (Task Outside : Type) where
  | start (c : Nat) (task : Task)
  | proceed (c : Nat) (outcome : Outcome)
  | outside (o : Outside)

/-- A call that works on the memory of the process does not fail. -/
def Event.input (s : System World Query Value α) : Event Task Outside → Input Task Outside
  | .start c task => .start c task
  | .proceed c outcome => .proceed c (if (s.pending c).any memory then .ok else outcome)
  | .outside o => .outside o

def processStep (s : System World Query Value α) (e : Event Task Outside) :
    Option (Answered Query Value) × System World Query Value α := step exec program outside s (e.input memory s)

/-- The thread that an event is about. -/
def Event.number : Event Task Outside → Option Nat
  | .start c _ => some c
  | .proceed c _ => some c
  | .outside _ => none

variable {exec program outside memory}

variable {s : System World Query Value α}

variable {e : Event Task Outside}

theorem process_others {d : Nat} (other : e.number ≠ some d) :
    (processStep exec program outside memory s e).2.threads d = s.threads d := by
  refine step_others exec program outside s ?_
  cases e with
  | start c task => exact other
  | proceed c outcome => exact other
  | outside o => exact other

theorem process_start_world (s : System World Query Value α) (c : Nat) (task : Task) :
    (processStep exec program outside memory s (.start c task)).2.world = s.world := by
  show (step exec program outside s (.start c task)).2.world = s.world
  simp only [step]
  split
  · rfl
  · rfl

/-- A thread that goes on carries out the call that it stands at. -/
theorem process_proceed_world (s : System World Query Value α) (c : Nat) (asked : Outcome) :
    (processStep exec program outside memory s (.proceed c asked)).2.world =
      (s.pending c).elim s.world fun q => (respond exec s.world q (if memory q then .ok else asked)).2 := by
  show (step exec program outside s (.proceed c (if (s.pending c).any memory then .ok else asked))).2.world = _
  cases stands : s.pending c with
  | none =>
    have idle : ∀ q made next, s.threads c ≠ some ⟨made,.call q next⟩ := by
      intro q made next running
      rw [pending_of_at ⟨made,next,running⟩] at stands
      cases stands
    simp only [step]
    split
    · rename_i made q next running
      exact absurd running (idle q made next)
    · rfl
  | some q =>
    obtain ⟨made,next,running⟩ := at_of_pending stands
    simp only [step,running]
    rfl

theorem process_run_others {d : Nat} {events : List (Event Task Outside)} (others : ∀ e ∈ events, e.number ≠ some d) :
    (run (processStep exec program outside memory) s events).threads d = s.threads d :=
  run_inv_of_mem (I := fun u : System World Query Value α => u.threads d = s.threads d)
    (fun _ e listed same => (process_others (others e listed)).trans same) rfl

/-- A run stands still where the threads stand still that its events are about. -/
theorem process_run_ended {w : World} {events : List (Event Task Outside)} (numbers : List Nat)
    (among : ∀ e ∈ events, e.number.all numbers.contains = true)
    (ended : ∀ c ∈ numbers, (run (processStep exec program outside memory) (System.start w) events).pending c = none) (c : Nat) :
    (run (processStep exec program outside memory) (System.start w) events).pending c = none := by
  by_cases listed : c ∈ numbers
  · exact ended c listed
  · have others : ∀ e ∈ events, e.number ≠ some c := by
      intro e member own
      have known := among e member
      rw [own,Option.all_some,List.contains_iff_mem] at known
      exact listed known
    have idle : (run (processStep exec program outside memory) (System.start w) events).threads c = none :=
      process_run_others others
    rw [System.pending,idle]

variable {Place : Type} {allowed : Place → Query → Prop}
  {after : Place → (q : Query) → Except String (Value q) → Place} {post : α → Place → Prop} {first : Place}

theorem process_placed (placed : Placed allowed after post first s)
    (starts : ∀ c task, e = .start c task → Follows allowed after post first (program task)) :
    Placed allowed after post first (processStep exec program outside memory s e).2 := by
  refine placed_step_of placed fun c task isStart => ?_
  cases e with
  | start d other =>
    obtain ⟨rfl,rfl⟩ := Input.start.inj isStart
    exact starts d other rfl
  | proceed d asked => cases isStart
  | outside o => cases isStart

/-- All that an event can do to the state and to the places of the threads. -/
theorem process_cases {s : System World Query Value α} (placed : Placed allowed after post first s) (e : Event Task Outside) :
    processStep exec program outside memory s e = (none,s) ∨
    (∃ c task, e = .start c task ∧ (∀ p, s.places after first c = some p → ∃ a, post a p) ∧
      (processStep exec program outside memory s e).1 = none ∧
      (processStep exec program outside memory s e).2.world = s.world ∧
      (processStep exec program outside memory s e).2.places after first =
        Function.update (s.places after first) c (some first)) ∨
    (∃ c asked outcome p q, e = .proceed c asked ∧ outcome = (if memory q then .ok else asked) ∧ s.pending c = some q ∧
      s.places after first c = some p ∧ allowed p q ∧
      (processStep exec program outside memory s e).1 = some ⟨q,(respond exec s.world q outcome).1⟩ ∧
      (processStep exec program outside memory s e).2.world = (respond exec s.world q outcome).2 ∧
      (processStep exec program outside memory s e).2.places after first =
        Function.update (s.places after first) c (some (after p q (respond exec s.world q outcome).1))) ∨
    ∃ o, e = .outside o ∧ (processStep exec program outside memory s e).1 = none ∧
      (processStep exec program outside memory s e).2.world = outside o s.world ∧
      (processStep exec program outside memory s e).2.places after first = s.places after first := by
  rcases placed_cases placed (e.input memory s) with same | ⟨c,task,isStart,rest⟩ |
    ⟨c,outcome,p,q,isProceed,standing,rest⟩ | ⟨c,isExit,_⟩ | ⟨o,isOutside,rest⟩
  · exact .inl same
  · cases e with
    | start d other =>
      obtain ⟨rfl,rfl⟩ := Input.start.inj isStart
      exact .inr (.inl ⟨d,other,rfl,rest⟩)
    | proceed d asked => cases isStart
    | outside o => cases isStart
  · cases e with
    | start d task => cases isProceed
    | outside o => cases isProceed
    | proceed d asked =>
      obtain ⟨rfl,isOutcome⟩ := Input.proceed.inj isProceed
      have pending := pending_of_at standing
      have outcomeIs : outcome = if memory q then .ok else asked := by
        rw [← isOutcome,pending]
        rfl
      exact .inr (.inr (.inl ⟨d,asked,outcome,p,q,rfl,outcomeIs,pending,rest⟩))
  · cases e with
    | start d task => cases isExit
    | proceed d asked => cases isExit
    | outside o => cases isExit
  · cases e with
    | start d task => cases isOutside
    | proceed d asked => cases isOutside
    | outside other =>
      obtain rfl := Input.outside.inj isOutside
      exact .inr (.inr (.inr ⟨other,rfl,rest⟩))

end Process

end StellarAlerts.Interleaving
