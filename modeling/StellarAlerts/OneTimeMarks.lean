import StellarAlerts.Histories

/-!
Keys that are marked for a time and checked before they are marked again. A
machine of any kind keeps marks where its steps either leave them alone or check
one key, refuse while its mark lives and renew it otherwise (`KeepsMarks`); then
two steps that passed with one key are apart by the time of the first mark
(`passes_apart`), whatever happened in between.
-/
namespace StellarAlerts.OneTimeMarks
open Histories
universe u v w
variable {State : Type u} {Input : Type v} {Key : Type w} [DecidableEq Key]

/-- A check of a key: when it happens and how long its mark lives. -/
structure Check (Key : Type w) where
  key : Key
  now : Nat
  lifetime : Nat
deriving DecidableEq, Repr

def live (mark : Option Nat) (now : Nat) : Prop := ∃ expiry, mark = some expiry ∧ now < expiry

variable (step : State → Input → Bool × State) (marks : State → Key → Option Nat) (check : Input → Option (Check Key))

/-- What a step does to the marks. -/
structure KeepsMarks (input : Input) : Prop where
  alone : ∀ s, check input = none → marks (step s input).2 = marks s
  refused : ∀ s c, check input = some c → live (marks s c.key) c.now →
    (step s input).1 = false ∧ marks (step s input).2 = marks s
  renewed : ∀ s c, check input = some c → ¬ live (marks s c.key) c.now →
    ∀ key, marks (step s input).2 key = if key = c.key then some (c.now + c.lifetime) else marks s key

variable {step marks check}

def MarkedUntil (marks : State → Key → Option Nat) (key : Key) (until_ : Nat) (s : State) : Prop :=
  ∃ expiry, marks s key = some expiry ∧ until_ ≤ expiry

variable {until_ : Nat} {s : State}

theorem markedUntil_step {input : Input} (keeps : KeepsMarks step marks check input) {key : Key}
    (marked : MarkedUntil marks key until_ s) : MarkedUntil marks key until_ (step s input).2 := by
  obtain ⟨expiry,markIs,least⟩ := marked
  cases checks : check input with
  | none =>
    rw [MarkedUntil,keeps.alone s checks]
    exact ⟨expiry,markIs,least⟩
  | some c =>
    by_cases lives : live (marks s c.key) c.now
    · rw [MarkedUntil,(keeps.refused s c checks lives).2]
      exact ⟨expiry,markIs,least⟩
    · rw [MarkedUntil,keeps.renewed s c checks lives key]
      by_cases same : key = c.key
      · -- The old mark of the key was gone, so the new one lives longer.
        have gone : expiry ≤ c.now := by
          apply Nat.le_of_not_lt
          intro still
          exact lives ⟨expiry,same ▸ markIs,still⟩
        exact ⟨c.now + c.lifetime,if_pos same,by omega⟩
      · exact ⟨expiry,by rw [if_neg same,markIs],least⟩

theorem markedUntil_run {inputs : List Input} (keeps : ∀ i ∈ inputs, KeepsMarks step marks check i) {key : Key}
    (marked : MarkedUntil marks key until_ s) : MarkedUntil marks key until_ (run step s inputs) :=
  run_inv_of_mem (fun _ i listed => markedUntil_step (keeps i listed)) marked

theorem markedUntil_passed {input : Input} (keeps : KeepsMarks step marks check input) {c : Check Key}
    (checks : check input = some c) (passed : (step s input).1 = true) :
    MarkedUntil marks c.key (c.now + c.lifetime) (step s input).2 := by
  by_cases lives : live (marks s c.key) c.now
  · rw [(keeps.refused s c checks lives).1] at passed
    cases passed
  · exact ⟨c.now + c.lifetime,by rw [keeps.renewed s c checks lives c.key,if_pos rfl],Nat.le_refl _⟩

theorem passed_late {input : Input} (keeps : KeepsMarks step marks check input) {c : Check Key}
    (checks : check input = some c) (passed : (step s input).1 = true) (marked : MarkedUntil marks c.key until_ s) :
    until_ ≤ c.now := by
  obtain ⟨expiry,markIs,least⟩ := marked
  apply Nat.le_of_not_lt
  intro early
  have refused := (keeps.refused s c checks ⟨expiry,markIs,by omega⟩).1
  rw [refused] at passed
  cases passed

theorem passes_apart {inputs : List Input} (keeps : ∀ i ∈ inputs, KeepsMarks step marks check i) (start : State) :
    (history step start inputs).Pairwise fun t u => ∀ c d, check t.input = some c → check u.input = some d →
      t.answer = true → u.answer = true → c.key = d.key → c.now + c.lifetime ≤ d.now := by
  induction inputs generalizing start with
  | nil => exact List.Pairwise.nil
  | cons input rest ih =>
    have others := fun i listed => keeps i (List.mem_cons_of_mem input listed)
    refine List.Pairwise.cons ?_ (ih others _)
    intro u later c d checks checks' passed passed' same
    obtain ⟨earlier,after,split⟩ := List.append_of_mem later
    obtain ⟨before,j,more,inputsAre,_,rfl,_⟩ := history_split split
    have marked := markedUntil_passed (keeps input (List.mem_cons_self ..)) checks passed
    have between : ∀ i ∈ before, KeepsMarks step marks check i := fun i listed => others i (by simp [inputsAre,listed])
    have still := markedUntil_run between marked
    rw [same] at still
    exact passed_late (others j (by simp [inputsAre])) checks' passed' still

end StellarAlerts.OneTimeMarks
