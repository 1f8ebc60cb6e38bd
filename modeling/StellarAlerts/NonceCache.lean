import StellarAlerts.OneTimeMarks
import StellarAlerts.RemoteCalls
import StellarAlerts.WalletLocks

/-!
The nonces that were used: a Redis key with a time to live for each of them, set only if
it is absent, and a map in memory that takes its place while Redis fails.
-/
namespace StellarAlerts.NonceCache
open OneTimeMarks RemoteCalls
open WalletLocks (Store Entry SetAnswer setNX)

def NONCE_PREFIX : String := "webhook_nonce:"

structure NonceStores where
  redis : Store
  degradedNonceStore : String → Option Nat

def NonceStores.start : NonceStores := ⟨fun _ => none,fun _ => none⟩
def NonceStores.record (stores : NonceStores) (key : String) (exp : Nat) : NonceStores :=
  { stores with degradedNonceStore := fun other => if other = key then some exp else stores.degradedNonceStore other }

/-- The degraded path, under the key. -/
def NonceStores.fallback (stores : NonceStores) (now : Nat) (key : String) (ttlSeconds : Nat) : Bool × NonceStores :=
  let recorded := stores.record key (now + ttlSeconds * 1000)
  match stores.degradedNonceStore key with
  | some exp => if now < exp then (false,stores) else (true,recorded)
  | none => (true,recorded)

/-- A lost answer leaves the key set and takes the degraded path. -/
def checkAndStoreNonce (stores : NonceStores) (now : Nat) (outcome : Outcome) (nonce : String) (ttlSeconds : Nat) :
    Bool × NonceStores :=
  if nonce = "" then (false,stores)
  else
    let key := NONCE_PREFIX ++ nonce
    let (result,redis) := setNX stores.redis now key "1" (ttlSeconds * 1000)
    match outcome with
    | .ok => (result == .OK,{ stores with redis := redis })
    | .lost _ => NonceStores.fallback { stores with redis := redis } now key ttlSeconds
    | .failed _ => stores.fallback now key ttlSeconds

/-- The calls are answered by Redis, or they all take the degraded path. -/
def AnsweredBy (degraded : Bool) (outcome : Outcome) : Prop := outcome.error.isSome = degraded

def expiries (degraded : Bool) (stores : NonceStores) (key : String) : Option Nat :=
  if degraded then stores.degradedNonceStore key else (stores.redis key).map Entry.expiresAt
@[simp] theorem expiries_degraded (stores : NonceStores) : expiries true stores = stores.degradedNonceStore := rfl
@[simp] theorem expiries_redis (stores : NonceStores) :
    expiries false stores = fun key => (stores.redis key).map Entry.expiresAt := rfl

variable {degraded : Bool} {stores : NonceStores} {now ttlSeconds : Nat} {outcome : Outcome} {nonce : String}

theorem fallback_live {key : String} (lives : live (stores.degradedNonceStore key) now) :
    stores.fallback now key ttlSeconds = (false,stores) := by
  obtain ⟨exp,found,later⟩ := lives
  simp [NonceStores.fallback,found,later]

theorem fallback_gone {key : String} (gone : ¬ live (stores.degradedNonceStore key) now) :
    (stores.fallback now key ttlSeconds).1 = true ∧
      ∀ other, (stores.fallback now key ttlSeconds).2.degradedNonceStore other =
        if other = key then some (now + ttlSeconds * 1000) else stores.degradedNonceStore other := by
  unfold NonceStores.fallback
  cases found : stores.degradedNonceStore key with
  | none => simp [NonceStores.record]
  | some exp =>
    have expired : ¬ now < exp := fun later => gone ⟨exp,found,later⟩
    simp [expired,NonceStores.record]

theorem get_live {store : Store} {key : String} :
    store.get now key ≠ none ↔ live ((store key).map Entry.expiresAt) now := by
  cases found : store key with
  | none => simp [Store.get,found,live]
  | some entry =>
    by_cases later : now < entry.expiresAt
    · simp [Store.get,found,live,later]
    · simp [Store.get,found,live,later]

theorem check_live (answered : AnsweredBy degraded outcome) (lives : live (expiries degraded stores (NONCE_PREFIX ++ nonce)) now) :
    (checkAndStoreNonce stores now outcome nonce ttlSeconds).1 = false ∧
      expiries degraded (checkAndStoreNonce stores now outcome nonce ttlSeconds).2 = expiries degraded stores := by
  unfold checkAndStoreNonce
  by_cases none_ : nonce = ""
  · simp [none_]
  · simp only [none_,↓reduceIte]
    cases outcome with
    | ok =>
      obtain rfl : false = degraded := answered
      rw [expiries_redis] at lives
      obtain ⟨value,valueIs⟩ := Option.ne_none_iff_exists'.mp (get_live.mpr lives)
      simp [setNX,valueIs]
    | lost message =>
      obtain rfl : true = degraded := answered
      rw [expiries_degraded] at lives
      have refused : ∀ redis : Store, NonceStores.fallback ⟨redis,stores.degradedNonceStore⟩ now (NONCE_PREFIX ++ nonce)
          ttlSeconds = (false,⟨redis,stores.degradedNonceStore⟩) := fun redis => fallback_live lives
      simp only [refused,expiries_degraded,and_self]
    | failed message =>
      obtain rfl : true = degraded := answered
      rw [expiries_degraded] at lives
      simp only [fallback_live lives,and_self]

theorem check_gone (answered : AnsweredBy degraded outcome) (some_ : nonce ≠ "")
    (gone : ¬ live (expiries degraded stores (NONCE_PREFIX ++ nonce)) now) :
    (checkAndStoreNonce stores now outcome nonce ttlSeconds).1 = true ∧
      ∀ key, expiries degraded (checkAndStoreNonce stores now outcome nonce ttlSeconds).2 key =
        if key = NONCE_PREFIX ++ nonce then some (now + ttlSeconds * 1000) else expiries degraded stores key := by
  unfold checkAndStoreNonce
  simp only [some_,↓reduceIte]
  cases outcome with
  | ok =>
    obtain rfl : false = degraded := answered
    rw [expiries_redis] at gone
    have absent : stores.redis.get now (NONCE_PREFIX ++ nonce) = none := by
      by_contra held
      exact gone (get_live.mp held)
    refine ⟨by simp [setNX,absent],?_⟩
    intro key
    by_cases same : key = NONCE_PREFIX ++ nonce
    · simp [setNX,absent,Store.put,same]
    · simp [setNX,absent,Store.put,same]
  | lost message =>
    obtain rfl : true = degraded := answered
    rw [expiries_degraded] at gone
    exact @fallback_gone ⟨_,stores.degradedNonceStore⟩ now ttlSeconds _ gone
  | failed message =>
    obtain rfl : true = degraded := answered
    rw [expiries_degraded] at gone
    exact fallback_gone gone

end StellarAlerts.NonceCache
