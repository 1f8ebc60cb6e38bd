import Mathlib.Data.List.Basic

/-!
The Redis locks of a wallet. Both set the key only if it is absent, with a time to live,
and both release by comparing the value before deleting the key.
-/
namespace StellarAlerts.WalletLocks

/-- A key's value and the time (in milliseconds) from which it is gone. -/
structure Entry where
  value : String
  expiresAt : Nat
  deriving DecidableEq, Repr

/-- The Redis keys; those whose time has come are still in the map. -/
abbrev Store := String → Option Entry

/-- The value that a command sees under a key. -/
def Store.get (store : Store) (now : Nat) (key : String) : Option String :=
  match store key with
  | some entry => if now < entry.expiresAt then some entry.value else none
  | none => none

def Store.put (store : Store) (key : String) (entry : Option Entry) : Store :=
  fun other => if other = key then entry else store other

/-- What a SET command answers; a lost connection is an error. -/
inductive SetAnswer where
  | OK
  | null
  | error
  deriving DecidableEq, Repr

/-- `SET key value PX ttlMs NX`. -/
def setNX (store : Store) (now : Nat) (key value : String) (ttlMs : Nat) : SetAnswer × Store :=
  match store.get now key with
  | some _ => (.null,store)
  | none => (.OK,store.put key (some ⟨value,now + ttlMs⟩))

def evalRelease (store : Store) (now : Nat) (key value : String) : Nat × Store :=
  if store.get now key = some value then (1,store.put key none) else (0,store)

/-- The script that extends the key's life if it has the value. -/
def evalRenew (store : Store) (now : Nat) (key value : String) (ttlMs : Nat) : Nat × Store :=
  if store.get now key = some value then (1,store.put key (some ⟨value,now + ttlMs⟩)) else (0,store)

namespace Mutex

def DEFAULT_TTL_MS : Nat := 30000
def getWalletLockKey (walletId : String) : String := "lock:wallet:" ++ walletId

/-- The attempts from `attempt` on, with so many retries left: the first `OK` is the lock; a null answer and an error are alike. -/
def attempts (answers : Nat → SetAnswer) (attempt : Nat) : Nat → Bool
  | 0 => answers attempt == .OK
  | left + 1 => if answers attempt = .OK then true else attempts answers (attempt + 1) left

def acquireWalletLock (answers : Nat → SetAnswer) (retryCount : Nat) : Bool := attempts answers 0 retryCount

theorem attempts_iff (answers : Nat → SetAnswer) (attempt left : Nat) :
    attempts answers attempt left = true ↔ ∃ later ≤ left, answers (attempt + later) = .OK := by
  induction left generalizing attempt with
  | zero => simp [attempts]
  | succ left ih =>
    rw [attempts]
    by_cases ok : answers attempt = .OK
    · simp only [ok,↓reduceIte,true_iff]
      exact ⟨0,Nat.zero_le _,ok⟩
    · simp only [ok,↓reduceIte,ih]
      constructor
      · rintro ⟨later,within,answered⟩
        exact ⟨later + 1,by omega,by rwa [show attempt + (later + 1) = attempt + 1 + later by omega]⟩
      · rintro ⟨later,within,answered⟩
        cases later with
        | zero => exact absurd answered ok
        | succ later => exact ⟨later,by omega,by rwa [show attempt + 1 + later = attempt + (later + 1) by omega]⟩

theorem acquireWalletLock_iff (answers : Nat → SetAnswer) (retryCount : Nat) :
    acquireWalletLock answers retryCount = true ↔ ∃ attempt ≤ retryCount, answers attempt = .OK := by
  rw [acquireWalletLock,attempts_iff]
  simp

end Mutex

namespace Redlock

def DEFAULT_TTL_MS : Nat := 15000
def getLockKey (walletId : String) : String := "lock:wallet:" ++ walletId

/-- A lease that a replica has acquired, and whether its heartbeat still runs. -/
structure DistributedLock where
  walletId : String
  key : String
  value : String
  ttlMs : Nat
  isReleased : Bool
  heartbeat : Bool
  deriving DecidableEq, Repr

/-- A replica's lock manager: the leases it has made, and which of them is the active one of a wallet. -/
structure DistributedLockManager where
  locks : List DistributedLock
  activeLocks : String → Option Nat

def DistributedLockManager.empty : DistributedLockManager := ⟨[],fun _ => none⟩
def DistributedLockManager.lease (manager : DistributedLockManager) (walletId : String) : Option DistributedLock :=
  (manager.activeLocks walletId).bind (manager.locks[·]?)

def DistributedLockManager.acquired (manager : DistributedLockManager) (answer : SetAnswer) (walletId value : String)
    (ttlMs : Nat) : DistributedLockManager :=
  if answer = .OK then
    { locks := manager.locks ++ [⟨walletId,getLockKey walletId,value,ttlMs,false,true⟩]
      activeLocks := fun other => if other = walletId then some manager.locks.length else manager.activeLocks other }
  else manager

/-- A lease is changed where it stands. -/
def DistributedLockManager.setLock (manager : DistributedLockManager) (i : Nat) (lock : DistributedLock) :
    DistributedLockManager := { manager with locks := manager.locks.set i lock }

/-- The wallet's lease is taken from the map and marked as released. -/
def DistributedLockManager.released (manager : DistributedLockManager) (walletId : String) : DistributedLockManager :=
  match manager.activeLocks walletId with
  | none => manager
  | some i =>
    { locks := manager.locks.modify i fun lock => { lock with isReleased := true, heartbeat := false }
      activeLocks := fun other => if other = walletId then none else manager.activeLocks other }

end Redlock

end StellarAlerts.WalletLocks
