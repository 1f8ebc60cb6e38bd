import Mathlib.Logic.Relation

/-!
Actions that read and write a state and may fail part of the way. A failure keeps what
was written before it, unless the action runs as a transaction.
-/
namespace StellarAlerts.Actions

abbrev Action (State Error : Type) := ExceptT Error (StateM State)

variable {State Error : Type} {α β : Type}

def exec (x : Action State Error α) (s : State) : Except Error α × State := StateT.run (ExceptT.run x) s

def transaction (x : Action State Error α) : Action State Error α :=
  ExceptT.mk fun s =>
    match exec x s with
    | (.ok a,s') => (.ok a,s')
    | (.error e,_) => (.error e,s)

/-- The elements one after the other; the first failure stops. -/
def forEach (f : β → Action State Error Unit) : List β → Action State Error Unit
  | [] => pure ()
  | b :: rest => do
    f b
    forEach f rest

theorem exec_bind (x : Action State Error α) (f : α → Action State Error β) (s : State) :
    exec (x >>= f) s =
      match exec x s with
      | (.ok a,s') => exec (f a) s'
      | (.error e,s') => (.error e,s') := by
  simp only [exec,ExceptT.run_bind,StateT.run_bind]
  change (match StateT.run (ExceptT.run x) s with | (a,s') => _) = _
  rcases StateT.run (ExceptT.run x) s with ⟨a | a,s'⟩ <;> rfl

theorem exec_transaction (x : Action State Error α) (s : State) :
    exec (transaction x) s =
      match exec x s with
      | (.ok a,s') => (.ok a,s')
      | (.error e,_) => (.error e,s) := rfl

def Ends (x : Action State Error α) (s : State) (post : Except Error α → State → Prop) : Prop :=
  post (exec x s).1 (exec x s).2

variable {x : Action State Error α} {s : State}

variable {post : Except Error α → State → Prop}

theorem ends_of_exec {outcome : Except Error α} {s' : State} (ran : exec x s = (outcome,s')) :
    Ends x s post ↔ post outcome s' := by
  unfold Ends
  rw [ran]

theorem ends_pure {a : α} : Ends (pure a) s post ↔ post (.ok a) s := Iff.rfl
theorem ends_get {post : Except Error State → State → Prop} :
    Ends get s post ↔ post (.ok s) s := Iff.rfl
theorem ends_modify {f : State → State} {post : Except Error PUnit → State → Prop} :
    Ends (modify f) s post ↔ post (.ok ⟨⟩) (f s) := Iff.rfl

theorem ends_bind {f : α → Action State Error β} {post : Except Error β → State → Prop} :
    Ends (x >>= f) s post ↔
      Ends x s (fun outcome s' =>
        match outcome with
        | .ok a => Ends (f a) s' post
        | .error e => post (.error e) s') := by
  unfold Ends
  rw [exec_bind]
  rcases exec x s with ⟨e | a,s'⟩ <;> rfl

theorem ends_map {f : α → β} {post : Except Error β → State → Prop} :
    Ends (f <$> x) s post ↔
      Ends x s (fun outcome s' => post (outcome.map f) s') := by
  rw [← bind_pure_comp,ends_bind]
  unfold Ends
  rcases exec x s with ⟨e | a,s'⟩ <;> rfl

theorem ends_mono {post' : Except Error α → State → Prop} (ends : Ends x s post)
    (weaker : ∀ outcome s', post outcome s' → post' outcome s') : Ends x s post' :=
  weaker _ _ ends

/-- A transaction that fails leaves the state it found. -/
theorem ends_transaction :
    Ends (transaction x) s post ↔
      Ends x s (fun outcome s' =>
        match outcome with
        | .ok a => post (.ok a) s'
        | .error e => post (.error e) s) := by
  unfold Ends
  rw [exec_transaction]
  rcases exec x s with ⟨e | a,s'⟩ <;> rfl

/-- However it ends, the action moves the state along the relation, and it fails with the given errors only. -/
def Keeps (R : State → State → Prop) (E : Error → Prop) (x : Action State Error α) : Prop :=
  ∀ s, Ends x s (fun outcome s' => R s s' ∧ ∀ error, outcome = .error error → E error)

section Keeps
variable {R : State → State → Prop} {E : Error → Prop}

theorem keeps_pure (refl : ∀ s, R s s) (a : α) : Keeps R E (pure a) := fun s => ⟨refl s,fun _ failed => by cases failed⟩
theorem keeps_get (refl : ∀ s, R s s) : Keeps R E get := fun s => ⟨refl s,fun _ failed => by cases failed⟩
theorem keeps_throw (refl : ∀ s, R s s) {e : Error} (allowed : E e) : Keeps R E (throw e : Action State Error α) :=
  fun s => ⟨refl s,fun _ failed => by cases failed; exact allowed⟩
theorem keeps_modify {f : State → State} (moves : ∀ s, R s (f s)) : Keeps R E (modify f) :=
  fun s => ⟨moves s,fun _ failed => by cases failed⟩

theorem keeps_bind {f : α → Action State Error β} (trans : ∀ {a b c}, R a b → R b c → R a c) (first : Keeps R E x)
    (second : ∀ a, Keeps R E (f a)) : Keeps R E (x >>= f) := by
  intro s
  refine ends_bind.mpr (ends_mono (first s) ?_)
  rintro (e | a) s' ⟨moved,errors⟩
  · exact ⟨moved,fun error same => by cases same; exact errors e rfl⟩
  · exact ends_mono (second a s') (fun outcome s'' later => ⟨trans moved later.1,later.2⟩)

theorem keeps_transaction (refl : ∀ s, R s s) (body : Keeps R E x) : Keeps R E (transaction x) := by
  intro s
  refine ends_transaction.mpr (ends_mono (body s) ?_)
  rintro (e | a) s' ⟨moved,errors⟩
  · exact ⟨refl s,fun error same => errors error same⟩
  · exact ⟨moved,fun error same => (by cases same)⟩

theorem keeps_forEach {f : β → Action State Error Unit} (refl : ∀ s, R s s)
    (trans : ∀ {a b c}, R a b → R b c → R a c) {items : List β} (each : ∀ b ∈ items, Keeps R E (f b)) :
    Keeps R E (forEach f items) := by
  induction items with
  | nil => exact keeps_pure refl ()
  | cons b rest ih =>
    exact keeps_bind trans (each b (List.mem_cons_self ..))
      (fun _ => ih (fun c listed => each c (List.mem_cons_of_mem b listed)))

end Keeps

end StellarAlerts.Actions
