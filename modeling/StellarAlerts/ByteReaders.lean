import Mathlib.Algebra.Group.Nat.Defs
import Mathlib.Data.List.Basic
import Mathlib.Order.Basic

/-!
Readers of byte sequences that keep a cursor. A reader throws, or asks for a byte that
is not there, or turns for ever; a safe reader does at most the first, and never goes
back (`Safe`).
-/
namespace StellarAlerts.ByteReaders

structure ByteCursor where
  bytes : List UInt8
  offset : Nat

/-- Why a reader gives nothing. -/
inductive Fault where
  | thrown (message : String)
  | pastEnd
  | endless
deriving DecidableEq

abbrev Reader := StateT ByteCursor (Except Fault)
def ByteCursor.remaining (c : ByteCursor) : Nat := c.bytes.length - c.offset

variable {α β : Type}

def fail (message : String) : Reader α := throw (.thrown message)

/-- The byte at the cursor, which moves on; the length is compared first. -/
def byte (message : String) : Reader UInt8 := do
  let c ← get
  if c.bytes.length ≤ c.offset then fail message
  else
    match c.bytes[c.offset]? with
    | some b =>
      set { c with offset := c.offset + 1 }
      return b
    | none => throw .pastEnd

def skip (message : String) (count : Nat) : Reader Unit := do
  let c ← get
  if c.bytes.length < c.offset + count then fail message
  else set { c with offset := c.offset + count }

/-- What a turn gives before what comes after it, or the end of the loop. -/
def follow (found : Option α) (rest : Reader (List α)) : Reader (List α) :=
  match found with
  | some a => (a :: ·) <$> rest
  | none => return []

/-- A loop that counts to a number while the cursor is before an end; a turn may leave it. -/
def upTo (turn : Reader (Option α)) (stop : Nat) : Nat → Reader (List α)
  | 0 => return []
  | turns + 1 => do
    let c ← get
    if c.offset < stop then turn >>= fun found => follow found (upTo turn stop turns)
    else return []

/-- A loop that counts, from an index on. -/
def times (turn : Nat → Reader α) : Nat → Nat → Reader (List α)
  | _, 0 => return []
  | i, turns + 1 => turn i >>= fun a => follow (some a) (times turn (i + 1) turns)

/-- A loop while bytes remain, which passes on what it gathers; a turn may leave it. -/
def whileRemaining (turn : α → Reader (α ⊕ α)) : Nat → α → Reader α
  | 0, _ => throw .endless
  | fuel + 1, a => do
    let c ← get
    if 0 < c.remaining then turn a >>= Sum.elim (whileRemaining turn fuel) pure
    else return a

def whileBytes (turn : α → Reader (α ⊕ α)) (a : α) : Reader α := do
  let c ← get
  whileRemaining turn (c.remaining + 1) a

theorem bind_run (p : Reader α) (f : α → Reader β) (c : ByteCursor) :
    (p >>= f) c = match p c with
      | .ok (a,c') => f a c'
      | .error fault => .error fault := by
  have start : (p >>= f) c = (p c >>= fun result => f result.1 result.2) := rfl
  rw [start]
  cases p c <;> rfl

variable {c : ByteCursor} {a : α}

theorem bind_ok {p : Reader α} {f : α → Reader β} {c' : ByteCursor} (is : p c = .ok (a,c')) :
    (p >>= f) c = f a c' := by rw [bind_run,is]

theorem byte_run (message : String) (c : ByteCursor) :
    byte message c = match c.bytes[c.offset]? with
      | some b => .ok (b,{ c with offset := c.offset + 1 })
      | none => .error (.thrown message) := by
  have start : byte message c =
      (if c.bytes.length ≤ c.offset then fail message
        else match c.bytes[c.offset]? with
          | some b => do
            set { c with offset := c.offset + 1 }
            return b
          | none => throw .pastEnd : Reader UInt8) c := rfl
  rw [start]
  by_cases past : c.bytes.length ≤ c.offset
  · rw [if_pos past,List.getElem?_eq_none past]
    rfl
  · rw [if_neg past,List.getElem?_eq_getElem (by omega)]
    rfl

theorem skip_run (message : String) (count : Nat) (c : ByteCursor) :
    skip message count c =
      if c.bytes.length < c.offset + count then .error (.thrown message)
      else .ok ((),{ c with offset := c.offset + count }) := by
  have start : skip message count c =
      (if c.bytes.length < c.offset + count then fail message else set { c with offset := c.offset + count } : Reader Unit) c :=
    rfl
  rw [start]
  split <;> rfl

theorem upTo_run (turn : Reader (Option α)) (stop turns : Nat) (c : ByteCursor) :
    upTo turn stop (turns + 1) c =
      if c.offset < stop then (turn >>= fun found => follow found (upTo turn stop turns)) c else .ok ([],c) := by
  have start : upTo turn stop (turns + 1) c =
      (if c.offset < stop then turn >>= fun found => follow found (upTo turn stop turns) else return [] : Reader (List α)) c := rfl
  rw [start]
  split <;> rfl

theorem whileRemaining_run (turn : α → Reader (α ⊕ α)) (fuel : Nat) (a : α) (c : ByteCursor) :
    whileRemaining turn (fuel + 1) a c =
      if 0 < c.remaining then (turn a >>= Sum.elim (whileRemaining turn fuel) pure) c else .ok (a,c) := by
  have start : whileRemaining turn (fuel + 1) a c =
      (if 0 < c.remaining then turn a >>= Sum.elim (whileRemaining turn fuel) pure else return a : Reader α) c := rfl
  rw [start]
  split <;> rfl

def Onward (least : Nat) (c c' : ByteCursor) : Prop := c'.bytes = c.bytes ∧ c.offset + least ≤ c'.offset

/-- The result is read further on; a fault is a message that is thrown. -/
structure SafeAt (least : Nat) (p : Reader α) (c : ByteCursor) : Prop where
  onward : ∀ a c', p c = .ok (a,c') → Onward least c c'
  thrown : ∀ fault, p c = .error fault → ∃ message, fault = .thrown message

def Safe (least : Nat) (p : Reader α) : Prop := ∀ c, SafeAt least p c

variable {least more : Nat} {p : Reader α} {f : α → Reader β}

theorem safeAt_ok {c' : ByteCursor} (is : p c = .ok (a,c')) (onward : Onward least c c') : SafeAt least p c where
  onward b c'' is' := by
    rw [is] at is'
    cases is'
    exact onward
  thrown fault is' := by
    rw [is] at is'
    cases is'

theorem safeAt_error {message : String} (is : p c = .error (.thrown message)) : SafeAt least p c where
  onward b c' is' := by
    rw [is] at is'
    cases is'
  thrown fault is' := by
    rw [is] at is'
    cases is'
    exact ⟨message,rfl⟩

theorem SafeAt.congr {p q : Reader α} (same : p c = q c) (safe : SafeAt least q c) : SafeAt least p c where
  onward a c' is := safe.onward a c' (same ▸ is)
  thrown fault is := safe.thrown fault (same ▸ is)

theorem safe_pure (a : α) : Safe 0 (pure a : Reader α) := fun _ => safeAt_ok rfl ⟨rfl,Nat.le_refl _⟩
theorem safe_fail (message : String) : Safe least (fail message : Reader α) := fun _ => safeAt_error rfl

theorem safeAt_bind (first : SafeAt least p c) (second : ∀ a c', Onward least c c' → SafeAt more (f a) c') :
    SafeAt (least + more) (p >>= f) c := by
  cases is : p c with
  | error fault =>
    obtain ⟨message,rfl⟩ := first.thrown fault is
    exact safeAt_error (by rw [bind_run,is])
  | ok result =>
    obtain ⟨a,c'⟩ := result
    have onward := first.onward a c' is
    have next := second a c' onward
    cases further : f a c' with
    | error fault =>
      obtain ⟨message,rfl⟩ := next.thrown fault further
      exact safeAt_error (by rw [bind_ok is,further])
    | ok result =>
      obtain ⟨b,c''⟩ := result
      have onward' := next.onward b c'' further
      refine safeAt_ok ((bind_ok is).trans further) ⟨onward'.1.trans onward.1,?_⟩
      have first := onward.2
      have second := onward'.2
      omega

theorem Safe.bind (first : Safe least p) (second : ∀ a, Safe more (f a)) : Safe (least + more) (p >>= f) :=
  fun c => safeAt_bind (first c) fun a c' _ => second a c'

/-- What follows a safe reader may read nothing. -/
theorem Safe.then (first : Safe least p) (second : ∀ a, Safe 0 (f a)) : Safe least (p >>= f) := first.bind second

theorem Safe.weaken (safe : Safe least p) : Safe 0 p := by
  intro c
  refine ⟨fun a c' is => ?_,(safe c).thrown⟩
  have onward := (safe c).onward a c' is
  exact ⟨onward.1,Nat.le_trans (Nat.le_add_right c.offset least) onward.2⟩

theorem Safe.map (safe : Safe least p) (g : α → β) : Safe least (g <$> p) := by
  have same : g <$> p = p >>= fun a => pure (g a) := (map_eq_pure_bind g p)
  rw [same]
  exact safe.then fun a => safe_pure (g a)

theorem safe_byte (message : String) : Safe 1 (byte message) := by
  intro c
  have is := byte_run message c
  cases found : c.bytes[c.offset]? with
  | some b =>
    rw [found] at is
    exact safeAt_ok is ⟨rfl,Nat.le_refl _⟩
  | none =>
    rw [found] at is
    exact safeAt_error is

theorem safe_skip (message : String) (count : Nat) : Safe count (skip message count) := by
  intro c
  have is := skip_run message count c
  split at is
  · exact safeAt_error is
  · exact safeAt_ok is ⟨rfl,Nat.le_refl _⟩

theorem safe_follow {found : Option α} {rest : Reader (List α)} (safe : Safe 0 rest) : Safe 0 (follow found rest) := by
  cases found with
  | some a => exact safe.map _
  | none => exact safe_pure []

theorem safe_upTo {turn : Reader (Option α)} (safe : Safe least turn) (stop turns : Nat) : Safe 0 (upTo turn stop turns) := by
  induction turns with
  | zero => exact safe_pure []
  | succ turns ih =>
    intro c
    have is := upTo_run turn stop turns c
    split at is
    · exact SafeAt.congr is (safe.weaken.then (fun _ => safe_follow ih) c)
    · exact safeAt_ok is ⟨rfl,Nat.le_refl _⟩

theorem safe_times {turn : Nat → Reader α} (safe : ∀ i, Safe least (turn i)) (i turns : Nat) : Safe 0 (times turn i turns) := by
  induction turns generalizing i with
  | zero => exact safe_pure []
  | succ turns ih => exact (safe i).weaken.then fun _ => safe_follow (ih (i + 1))

/-- Every result is of the kind. -/
def Gives (Q : α → Prop) (p : Reader α) : Prop := ∀ c a c', p c = .ok (a,c') → Q a

theorem gives_pure {Q : α → Prop} (holds : Q a) : Gives Q (pure a : Reader α) := by
  intro c b c' is
  cases is
  exact holds

theorem gives_bind {Q : β → Prop} (each : ∀ a, Gives Q (f a)) : Gives Q (p >>= f) := by
  intro c b c' is
  rw [bind_run] at is
  split at is
  · next a c'' _ => exact each a c'' b c' is
  · cases is

section While
variable {turn : α → Reader (α ⊕ α)} (safe : ∀ a, Safe 1 (turn a))
include safe

variable {a : α} {c : ByteCursor}

theorem remaining_lt {next : α ⊕ α} {c' : ByteCursor} (some_ : 0 < c.remaining) (is : turn a c = .ok (next,c')) :
    c'.remaining < c.remaining := by
  obtain ⟨same,further⟩ := (safe a c).onward next c' is
  rw [ByteCursor.remaining] at some_ ⊢
  rw [ByteCursor.remaining,same]
  omega

theorem whileRemaining_enough {n m : Nat} (enough : c.remaining < n) (enough' : c.remaining < m) :
    whileRemaining turn n a c = whileRemaining turn m a c := by
  induction n generalizing m a c with
  | zero => omega
  | succ n ih =>
    obtain ⟨m,rfl⟩ : ∃ k, m = k + 1 := ⟨m - 1,by omega⟩
    rw [whileRemaining_run,whileRemaining_run]
    split
    · next some_ =>
      rw [bind_run,bind_run]
      cases is : turn a c with
      | error fault => rfl
      | ok result =>
        obtain ⟨next,c'⟩ := result
        have fewer := remaining_lt safe some_ is
        cases next with
        | inl next => exact ih (by omega) (by omega)
        | inr result => rfl
    · rfl

theorem whileBytes_run (a : α) (c : ByteCursor) :
    whileBytes turn a c =
      if 0 < c.remaining then (turn a >>= Sum.elim (whileBytes turn) pure) c else .ok (a,c) := by
  have start : ∀ a c, whileBytes turn a c = whileRemaining turn (c.remaining + 1) a c := fun _ _ => rfl
  rw [start,whileRemaining_run]
  split
  · next some_ =>
    rw [bind_run,bind_run]
    cases is : turn a c with
    | error fault => rfl
    | ok result =>
      obtain ⟨next,c'⟩ := result
      have fewer := remaining_lt safe some_ is
      cases next with
      | inl next => exact (whileRemaining_enough safe (by omega) (by omega)).trans (start next c').symm
      | inr result => rfl
  · rfl

theorem whileBytes_inv {I : α → Prop} (keeps : ∀ a, I a → Gives (Sum.elim I I) (turn a)) {b : α} {c' : ByteCursor}
    (holds : I a) (is : whileBytes turn a c = .ok (b,c')) : I b := by
  induction length : c.remaining using Nat.strongRecOn generalizing a c with
  | ind n ih =>
    rw [whileBytes_run safe] at is
    split at is
    · next some_ =>
      rw [bind_run] at is
      cases first : turn a c with
      | error fault =>
        rw [first] at is
        cases is
      | ok result =>
        obtain ⟨next,c''⟩ := result
        have fewer := remaining_lt safe some_ first
        have kept := keeps a holds c next c'' first
        rw [first] at is
        cases next with
        | inl next => exact ih c''.remaining (by omega) kept is rfl
        | inr result =>
          cases is
          exact kept
    · cases is
      exact holds

theorem safe_whileBytes (a : α) : Safe 0 (whileBytes turn a) := by
  intro c
  induction length : c.remaining using Nat.strongRecOn generalizing a c with
  | ind n ih =>
    have is := whileBytes_run safe a c
    split at is
    · next some_ =>
      refine SafeAt.congr is ?_
      cases first : turn a c with
      | error fault =>
        obtain ⟨message,rfl⟩ := (safe a c).thrown fault first
        exact safeAt_error (by rw [bind_run,first])
      | ok result =>
        obtain ⟨next,c'⟩ := result
        have onward := (safe a c).onward next c' first
        have fewer := remaining_lt safe some_ first
        have before : c.offset ≤ c'.offset := Nat.le_trans (Nat.le_add_right c.offset 1) onward.2
        cases next with
        | inl next =>
          have rest := ih c'.remaining (by omega) next c' rfl
          have same : (turn a >>= Sum.elim (whileBytes turn) pure) c = whileBytes turn next c' := bind_ok first
          refine ⟨fun b c'' is' => ?_,fun fault is' => rest.thrown fault (same ▸ is')⟩
          have later := rest.onward b c'' (same ▸ is')
          exact ⟨later.1.trans onward.1,Nat.le_trans before later.2⟩
        | inr result => exact safeAt_ok (bind_ok first) ⟨onward.1,before⟩
    · exact safeAt_ok is ⟨rfl,Nat.le_refl _⟩

end While

/-- Of the bytes that stand at the place, whatever stands around them, the reader makes the result. -/
def Reads (p : Reader α) (start : Nat) (input : List UInt8) (a : α) : Prop :=
  ∀ before after, before.length = start →
    p ⟨before ++ input ++ after,start⟩ = .ok (a,⟨before ++ input ++ after,start + input.length⟩)

/-- A sequence of things, each with its bytes. -/
inductive Items (P : α → List UInt8 → Prop) : List α → List UInt8 → Prop where
  | nil : Items P [] []
  | cons {a : α} {input : List UInt8} {rest : List α} {more : List UInt8} (first : P a input) (later : Items P rest more) :
      Items P (a :: rest) (input ++ more)

section Reads
variable {start : Nat} {input : List UInt8} {a : α}

theorem reads_pure : Reads (pure a : Reader α) start [] a := fun _ _ _ => rfl

theorem Reads.bind {second : List UInt8} {b : β} (first : Reads p start input a)
    (next : Reads (f a) (start + input.length) second b) : Reads (p >>= f) start (input ++ second) b := by
  intro before after place
  have is := first before (second ++ after) place
  have is' := next (before ++ input) after (by rw [List.length_append,place])
  rw [← List.append_assoc] at is
  rw [← List.append_assoc,bind_ok is,is',List.length_append,Nat.add_assoc]

/-- A reader that is followed by nothing more to read. -/
theorem Reads.then_pure (reads : Reads p start input a) (g : α → β) : Reads (p >>= fun a => pure (g a)) start input (g a) := by
  rw [← List.append_nil input]
  exact reads.bind reads_pure

theorem Reads.map (reads : Reads p start input a) (g : α → β) : Reads (g <$> p) start input (g a) := by
  have same : g <$> p = p >>= fun a => pure (g a) := map_eq_pure_bind g p
  rw [same]
  exact reads.then_pure g

theorem reads_get {f : ByteCursor → Reader α}
    (next : ∀ before after, before.length = start → Reads (f ⟨before ++ input ++ after,start⟩) start input a) :
    Reads (get >>= f) start input a := fun before after place => next before after place before after place

theorem reads_byte (message : String) (b : UInt8) : Reads (byte message) start [b] b := by
  rintro before after rfl
  rw [byte_run]
  have there : (before ++ [b] ++ after)[before.length]? = some b := by simp
  rw [there]
  rfl

theorem reads_skip (message : String) : Reads (skip message input.length) start input () := by
  rintro before after rfl
  rw [skip_run,if_neg]
  simp

theorem reads_follow {rest : Reader (List α)} {as : List α} (reads : Reads rest start input as) :
    Reads (follow (some a) rest) start input (a :: as) := reads.map (a :: ·)

/-- A loop with an end reads as many things as it counts, if they end by there. -/
theorem reads_upTo {γ : Type} {turn : Reader (Option α)} {P : γ → List UInt8 → Prop} {g : γ → α} {stop : Nat}
    (each : ∀ a input, P a input → input ≠ [] ∧ ∀ start, Reads turn start input (some (g a))) {as : List γ}
    (items : Items P as input) (ends : start + input.length ≤ stop) :
    Reads (upTo turn stop as.length) start input (as.map g) := by
  induction items generalizing start with
  | nil => exact reads_pure
  | @cons a first rest more own _ ih =>
    obtain ⟨some_,reads⟩ := each a first own
    rw [List.length_append] at ends
    have positive := List.length_pos_of_ne_nil some_
    have both : Reads (turn >>= fun found => follow found (upTo turn stop rest.length)) start (first ++ more)
        (g a :: rest.map g) := (reads start).bind (reads_follow (ih (by omega)))
    intro before after place
    have inside : start < stop := by omega
    rw [List.length_cons,upTo_run,if_pos inside]
    exact both before after place

theorem reads_times {γ : Type} {turn : Nat → Reader β} {P : γ → List UInt8 → Prop} {g : Nat → γ → β}
    (each : ∀ a input, P a input → ∀ i start, Reads (turn i) start input (g i a)) {as : List γ} (items : Items P as input)
    (i : Nat) : Reads (times turn i as.length) start input (as.zipIdx i |>.map fun a => g a.2 a.1) := by
  induction items generalizing start i with
  | nil => exact reads_pure
  | @cons a first rest more own _ ih => exact (each a first own i start).bind (reads_follow (ih (i + 1)))

section While
variable {turn : α → Reader (α ⊕ α)} (safe : ∀ a, Safe 1 (turn a))
include safe

omit safe in
theorem remaining_pos {before after : List UInt8} (place : before.length = start) (some_ : input ≠ []) :
    0 < ByteCursor.remaining ⟨before ++ input ++ after,start⟩ := by
  have positive := List.length_pos_of_ne_nil some_
  simp only [ByteCursor.remaining,List.length_append]
  omega

theorem whileBytes_again {next : α} (reads : Reads (turn a) start input (.inl next)) (some_ : input ≠ [])
    {before after : List UInt8} (place : before.length = start) :
    whileBytes turn a ⟨before ++ input ++ after,start⟩ =
      whileBytes turn next ⟨before ++ input ++ after,start + input.length⟩ := by
  rw [whileBytes_run safe,if_pos (remaining_pos place some_),bind_ok (reads before after place)]
  rfl

theorem whileBytes_left {result : α} (reads : Reads (turn a) start input (.inr result)) (some_ : input ≠ [])
    {before after : List UInt8} (place : before.length = start) :
    whileBytes turn a ⟨before ++ input ++ after,start⟩ =
      .ok (result,⟨before ++ input ++ after,start + input.length⟩) := by
  rw [whileBytes_run safe,if_pos (remaining_pos place some_),bind_ok (reads before after place)]
  rfl

theorem whileBytes_end {bytes : List UInt8} : whileBytes turn a ⟨bytes,bytes.length⟩ = .ok (a,⟨bytes,bytes.length⟩) := by
  rw [whileBytes_run safe,if_neg]
  simp [ByteCursor.remaining]

end While
end Reads

end StellarAlerts.ByteReaders
