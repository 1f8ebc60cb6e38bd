import StellarAlerts.Histories
import StellarAlerts.WalletLocks

/-!
The blocklist of revoked tokens. A check sees only the revocations that were made while
Redis was in the same condition (`isTokenRevoked_iff`).
-/
namespace StellarAlerts.TokenBlocklist
open Histories
open WalletLocks (Store Entry)

def BLOCKLIST_PREFIX : String := "jwt_blocklist:"

/-- The clock in milliseconds, and the two stores. -/
structure State where
  clock : Nat
  redis : Store
  degradedBlocklist : String → Option Nat

def State.start : State := ⟨0,fun _ => none,fun _ => none⟩

inductive Call where
  /-- with the expiry of the token in seconds -/
  | revokeToken (jti : String) (exp : Int)
  | isTokenRevoked (jti : String)
deriving DecidableEq, Repr

/-- A call, the time before it, and its Redis command: how long it takes and whether it succeeds. -/
structure Input where
  call : Call
  wait : Nat
  delay : Nat
  up : Bool
deriving DecidableEq, Repr

/-- `redis.set(key,'1','EX',ttlSeconds)`. -/
def State.setRedis (s : State) (key : String) (ttlSeconds : Nat) : State :=
  { s with redis := s.redis.put key (some ⟨"1",s.clock + ttlSeconds * 1000⟩) }

def State.setDegraded (s : State) (key : String) (expiresAt : Nat) : State :=
  { s with degradedBlocklist := fun other => if other = key then some expiresAt else s.degradedBlocklist other }
def State.wait (s : State) (ms : Nat) : State := { s with clock := s.clock + ms }

/-- The seconds that a token has left; an expired one is not stored. -/
def ttlSeconds (clock : Nat) (exp : Int) : Int := exp - (clock / 1000 : Nat)

def revokeToken (s : State) (jti : String) (exp : Int) (delay : Nat) (up : Bool) : State :=
  let ttl := ttlSeconds s.clock exp
  if ttl ≤ 0 then s
  else
    let s := s.wait delay
    if up then s.setRedis (BLOCKLIST_PREFIX ++ jti) ttl.toNat
    else s.setDegraded (BLOCKLIST_PREFIX ++ jti) (s.clock + ttl.toNat * 1000)

def isTokenRevoked (s : State) (jti : String) (delay : Nat) (up : Bool) : Bool × State :=
  let s := s.wait delay
  if up then (s.redis.get s.clock (BLOCKLIST_PREFIX ++ jti) ≠ none,s)
  else
    match s.degradedBlocklist (BLOCKLIST_PREFIX ++ jti) with
    | some expiresAt => (s.clock < expiresAt,s)
    | none => (false,s)

/-- The answer is what `isTokenRevoked` returns. -/
def step (s : State) (i : Input) : Option Bool × State :=
  let s := s.wait i.wait
  match i.call with
  | .revokeToken jti exp => (none,revokeToken s jti exp i.delay i.up)
  | .isTokenRevoked jti => ((some (isTokenRevoked s jti i.delay i.up).1),(isTokenRevoked s jti i.delay i.up).2)

/-- When a key of one of the stores is gone: of Redis, or of the memory. -/
def expiries (s : State) (place : Bool × String) : Option Nat :=
  if place.1 then (s.redis (BLOCKLIST_PREFIX ++ place.2)).map Entry.expiresAt
  else s.degradedBlocklist (BLOCKLIST_PREFIX ++ place.2)

/-- What a call stored about a token in one of the stores: when it will be gone. -/
def stored (t : Transition State Input (Option Bool)) (place : Bool × String) : Option Nat :=
  let now := t.before.clock + t.input.wait
  match t.input.call with
  | .revokeToken jti exp =>
    let ttl := ttlSeconds now exp
    if 0 < ttl ∧ (t.input.up,jti) = place then some (now + t.input.delay + ttl.toNat * 1000) else none
  | .isTokenRevoked _ => none

@[simp] theorem wait_redis (s : State) (ms : Nat) : (s.wait ms).redis = s.redis := rfl
@[simp] theorem wait_degraded (s : State) (ms : Nat) : (s.wait ms).degradedBlocklist = s.degradedBlocklist := rfl
@[simp] theorem wait_clock (s : State) (ms : Nat) : (s.wait ms).clock = s.clock + ms := rfl
@[simp] theorem wait_expiries (s : State) (ms : Nat) (place : Bool × String) : expiries (s.wait ms) place = expiries s place := rfl

@[simp] theorem isTokenRevoked_after (s : State) (jti : String) (delay : Nat) (up : Bool) :
    (isTokenRevoked s jti delay up).2 = s.wait delay := by
  unfold isTokenRevoked
  cases up with
  | true => rfl
  | false => cases found : s.degradedBlocklist (BLOCKLIST_PREFIX ++ jti) <;> simp [found]

theorem prefix_inj {a b : String} : BLOCKLIST_PREFIX ++ a = BLOCKLIST_PREFIX ++ b ↔ a = b := by simp

theorem revokeToken_expiries (s : State) (jti : String) (exp : Int) (delay : Nat) (up : Bool) (place : Bool × String) :
    expiries (revokeToken s jti exp delay up) place =
      if 0 < ttlSeconds s.clock exp ∧ (up,jti) = place then some (s.clock + delay + (ttlSeconds s.clock exp).toNat * 1000)
      else expiries s place := by
  obtain ⟨redisUp,token⟩ := place
  unfold revokeToken
  by_cases gone : ttlSeconds s.clock exp ≤ 0
  · have notLeft : ¬ 0 < ttlSeconds s.clock exp := by omega
    simp [gone,notLeft]
  · have left : 0 < ttlSeconds s.clock exp := by omega
    by_cases own : jti = token
    · cases up <;> cases redisUp <;>
        simp [gone,left,own,expiries,State.setRedis,State.setDegraded,Store.put]
    · have other : BLOCKLIST_PREFIX ++ token ≠ BLOCKLIST_PREFIX ++ jti := fun same => own (prefix_inj.mp same).symm
      cases up <;> cases redisUp <;>
        simp [gone,own,expiries,State.setRedis,State.setDegraded,Store.put,other]

theorem step_writes (s : State) (i : Input) (place : Bool × String) :
    expiries (step s i).2 place = (stored (transition step s i) place).or (expiries s place) := by
  obtain ⟨call,wait,delay,up⟩ := i
  cases call with
  | isTokenRevoked jti => simp [step,stored,transition]
  | revokeToken jti exp =>
    show expiries (revokeToken (s.wait wait) jti exp delay up) place = _
    rw [revokeToken_expiries]
    by_cases writes : 0 < ttlSeconds (s.clock + wait) exp ∧ (up,jti) = place <;>
      simp [stored,transition,writes]

/-- When the last revocation that a token has in one of the stores will be gone. -/
def lastStored (past : List (Transition State Input (Option Bool))) (place : Bool × String) : Option Nat :=
  past.reverse.findSome? (stored · place)

theorem expiries_run (inputs : List Input) (place : Bool × String) :
    expiries (run step .start inputs) place = lastStored (history step .start inputs) place := by
  have start : expiries .start place = none := by
    obtain ⟨redisUp,token⟩ := place
    cases redisUp <;> rfl
  rw [run_last_write step_writes,start,Option.or_none]
  rfl

/-- A check, made after a run. -/
structure Read where
  jti : String
  wait : Nat
  delay : Nat
  up : Bool

def Read.input (r : Read) : Input := ⟨.isTokenRevoked r.jti,r.wait,r.delay,r.up⟩

/-- When a check after a run looks into a store. -/
def Read.time (r : Read) (inputs : List Input) : Nat := (run step .start inputs).clock + r.wait + r.delay

theorem isTokenRevoked_reads (s : State) (jti : String) (delay : Nat) (up : Bool) :
    (isTokenRevoked s jti delay up).1 = true ↔
      ∃ expiresAt, expiries s (up,jti) = some expiresAt ∧ s.clock + delay < expiresAt := by
  unfold isTokenRevoked
  cases up with
  | true =>
    cases held : s.redis (BLOCKLIST_PREFIX ++ jti) with
    | none => simp [Store.get,expiries,held]
    | some entry => by_cases live : s.clock + delay < entry.expiresAt <;> simp [Store.get,expiries,held,live]
  | false =>
    cases held : s.degradedBlocklist (BLOCKLIST_PREFIX ++ jti) with
    | none => simp [expiries,held]
    | some expiresAt => by_cases live : s.clock + delay < expiresAt <;> simp [expiries,held,live]

theorem isTokenRevoked_iff (inputs : List Input) (r : Read) :
    (step (run step .start inputs) r.input).1 = some true ↔
      ∃ expiresAt, lastStored (history step .start inputs) (r.up,r.jti) = some expiresAt ∧ r.time inputs < expiresAt := by
  rw [← expiries_run]
  show some (isTokenRevoked ((run step .start inputs).wait r.wait) r.jti r.delay r.up).1 = some true ↔ _
  rw [Option.some.injEq,isTokenRevoked_reads]
  rfl

/-- What a check should do: it tells that a token is revoked as long as some revocation of it has not expired. -/
def Survives (inputs : List Input) (r : Read) : Prop :=
  ∀ exp, (∃ i ∈ inputs, i.call = .revokeToken r.jti exp) → (r.time inputs : Int) < exp * 1000 →
    (step (run step .start inputs) r.input).1 = some true

/-- The last revocation that the run has stored where the check looks is not gone. -/
def Reached (inputs : List Input) (r : Read) : Prop :=
  ∃ expiresAt, lastStored (history step .start inputs) (r.up,r.jti) = some expiresAt ∧ r.time inputs < expiresAt

/-- A check tells that a token is revoked, as it should, exactly when the store that it asks was told. -/
theorem revocation_survives_iff (inputs : List Input) (r : Read) :
    Survives inputs r ↔
      ((∃ exp, (∃ i ∈ inputs, i.call = .revokeToken r.jti exp) ∧ (r.time inputs : Int) < exp * 1000) →
        Reached inputs r) := by
  unfold Survives Reached
  rw [← isTokenRevoked_iff]
  constructor
  · rintro survives ⟨exp,revoked,early⟩
    exact survives exp revoked early
  · intro reached exp revoked early
    exact reached ⟨exp,revoked,early⟩

/-- A token that the process revoked while Redis failed is accepted once it answers again. -/
theorem outage_forgets : ¬ Survives [⟨.revokeToken "a" 1000,0,1,false⟩] ⟨"a",1,1,true⟩ := by
  intro survives
  have told := survives 1000 ⟨_,List.mem_singleton_self _,rfl⟩ (by decide)
  rw [isTokenRevoked_iff,← expiries_run] at told
  obtain ⟨expiresAt,held,_⟩ := told
  cases held

end StellarAlerts.TokenBlocklist
