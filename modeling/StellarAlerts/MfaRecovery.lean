import StellarAlerts.HexText
import StellarAlerts.Interleaving
import StellarAlerts.Sha256

/-!
Account recovery with a one-time code. Codes are used once where their marking finds
them unused, and a window has three wrong codes at most where each is counted by the
limit that the call was let in by, while that limit has attempts left
(`recovery_limits`).
-/
namespace StellarAlerts.MfaRecovery
open HexText
open Interleaving hiding step
open IntegerText (isStrWhiteSpace trim)
open Sha256 (sha256 utf8)

/-- Case mappings of texts with characters beyond ASCII. -/
structure Platform where
  otherLowerCase : String → String
  otherUpperCase : String → String

def isAscii (text : String) : Bool := text.toList.all fun c => c.toNat < 128
def Platform.toLowerCase (p : Platform) (text : String) : String :=
  if isAscii text then HexText.toLowerCase text else p.otherLowerCase text
def Platform.toUpperCase (p : Platform) (text : String) : String :=
  if isAscii text then String.ofList (text.toList.map Char.toUpper) else p.otherUpperCase text
def normalizeRecoveryCode (p : Platform) (code : String) : String :=
  p.toUpperCase (String.ofList (code.toList.filter fun c => !(isStrWhiteSpace c || c == '-')))
def hashRecoveryCode (p : Platform) (code : String) : String := toHex (sha256 (utf8 (normalizeRecoveryCode p code)))

def verifyRecoveryCodeHash (p : Platform) (enteredCode storedHash : String) : Bool :=
  if enteredCode = "" ∨ storedHash = "" then false
  else
    let bufA := fromHex (hashRecoveryCode p enteredCode)
    let bufB := fromHex storedHash
    if bufA.length ≠ bufB.length then false else bufA == bufB

structure RecoveryRateLimit where
  attempts : Nat
  firstAttemptAt : Nat
deriving DecidableEq, Repr

def MAX_RECOVERY_ATTEMPTS : Nat := 3
def RECOVERY_WINDOW_MS : Nat := 15 * 60 * 1000

structure User where
  id : String
  email : String
  mfaEnabled : Bool
  mfaSecret : Option String
deriving DecidableEq, Repr

structure MfaRecoveryCode where
  id : String
  userId : String
  codeHash : String
  used : Bool
  usedAt : Option Nat
deriving DecidableEq, Repr

structure SecurityAuditLog where
  eventType : String
  severity : String
  userId : Option String
  email : String
  usedCodeId : Option String
  ipAddress : Option String
  reason : Option String
deriving DecidableEq, Repr

structure World where
  clock : Nat
  user : List User
  mfaRecoveryCode : List MfaRecoveryCode
  securityAuditLog : List SecurityAuditLog
  /-- the limit of each key, by its place among all that were made -/
  recoveryRateLimits : String → Option Nat
  limits : List RecoveryRateLimit

def World.code (w : World) (id : String) : Option MfaRecoveryCode := w.mfaRecoveryCode.find? fun row => row.id == id

/-- Why an attempt failed. -/
inductive Failure where
  | notConfigured
  | mismatch (userId : String)
deriving DecidableEq, Repr

inductive Query where
  /-- up to `currentLimit`, in memory -/
  | checkLimit (rateLimitKey : String)
  /-- `currentLimit.attempts++` -/
  | countAttempt (rateLimitKey : String) (currentLimit : Nat) (failure : Failure)
  /-- `recoveryRateLimits.delete(rateLimitKey)` -/
  | clearLimit (rateLimitKey : String)
  /-- with the codes that are not used -/
  | findUser (email : String)
  | useCode (id : String)
  | resetMfa (userId : String)
  | createAuditLog (entry : SecurityAuditLog)
deriving DecidableEq, Repr

abbrev Value : Query → Type
  | .checkLimit _ => Nat
  | .findUser _ => Option (User × List MfaRecoveryCode)
  | _ => Unit

abbrev Code := Interleaving.Code Query Value
def tooManyAttempts (remainingSec : Nat) : String :=
  "Too many recovery attempts. Please try again in " ++ toString remainingSec ++ " seconds."

def World.running (w : World) (key : String) : Option (Nat × RecoveryRateLimit) :=
  (w.recoveryRateLimits key).bind fun place => (w.limits[place]?).bind fun rateLimit =>
    if w.clock - rateLimit.firstAttemptAt < RECOVERY_WINDOW_MS then some (place,rateLimit) else none

def World.setLimit (w : World) (key : String) (place : Option Nat) : World :=
  { w with recoveryRateLimits := fun other => if other = key then place else w.recoveryRateLimits other }

/-- A window begins. -/
def World.open (w : World) (key : String) : World :=
  ({ w with limits := w.limits ++ [⟨0,w.clock⟩] } : World).setLimit key (some w.limits.length)

def RecoveryRateLimit.count (rateLimit : RecoveryRateLimit) : RecoveryRateLimit :=
  { rateLimit with attempts := rateLimit.attempts + 1 }
def MfaRecoveryCode.use (id : String) (usedAt : Nat) (row : MfaRecoveryCode) : MfaRecoveryCode :=
  if row.id = id then { row with used := true, usedAt := some usedAt } else row
def User.reset (id : String) (row : User) : User :=
  if row.id = id then { row with mfaEnabled := false, mfaSecret := none } else row

def exec (w : World) : (q : Query) → Except String (Value q) × World
  | .checkLimit key =>
    match w.running key with
    | none => (.ok w.limits.length,w.open key)
    | some (place,rateLimit) =>
      if MAX_RECOVERY_ATTEMPTS ≤ rateLimit.attempts then
        (.error (tooManyAttempts ((RECOVERY_WINDOW_MS - (w.clock - rateLimit.firstAttemptAt) + 999) / 1000)),w)
      else (.ok place,w)
  | .countAttempt _ place _ => (.ok (),{ w with limits := w.limits.modify place RecoveryRateLimit.count })
  | .clearLimit key => (.ok (),w.setLimit key none)
  | .findUser email =>
    (.ok ((w.user.find? fun row => row.email == email).map fun user =>
      (user,w.mfaRecoveryCode.filter fun row => row.userId == user.id && !row.used)),w)
  | .useCode id =>
    if (w.code id).isNone then (.error "Record to update not found.",w)
    else (.ok (),{ w with mfaRecoveryCode := w.mfaRecoveryCode.map (MfaRecoveryCode.use id w.clock) })
  | .resetMfa userId =>
    if w.user.all fun row => row.id != userId then (.error "Record to update not found.",w)
    else (.ok (),{ w with user := w.user.map (User.reset userId) })
  | .createAuditLog entry => (.ok (),{ w with securityAuditLog := w.securityAuditLog ++ [entry] })

def ask (q : Query) : Code (Value q) := query q

structure Recovery where
  userId : String
  email : String
  message : String
deriving DecidableEq, Repr

def RECOVERED : String :=
  "Account successfully recovered. MFA has been reset for your lost device. Please set up MFA again."

def Failure.userId : Failure → Option String
  | .notConfigured => none
  | .mismatch userId => some userId

def Failure.reason : Failure → String
  | .notConfigured => "User not found or MFA not configured"
  | .mismatch _ => "Code hash mismatch"

def Failure.message : Failure → String
  | .notConfigured => "Invalid recovery code or account does not have MFA configured"
  | .mismatch _ => "Invalid recovery code"

/-- An attempt that failed is counted and logged, and the call throws. -/
def refuse (rateLimitKey : String) (currentLimit : Nat) (email : String) (ipAddress : Option String) (failure : Failure) :
    Code Recovery := do
  ask (.countAttempt rateLimitKey currentLimit failure)
  ask (.createAuditLog ⟨"MFA_RECOVERY_FAILED","HIGH",failure.userId,email,none,ipAddress,some failure.reason⟩)
  throw failure.message

/-- The token is given by the user that it is for. -/
def recover (rateLimitKey : String) (user : User) (matchedCode : MfaRecoveryCode) (ipAddress : Option String) :
    Code Recovery := do
  ask (.clearLimit rateLimitKey)
  ask (.useCode matchedCode.id)
  ask (.resetMfa user.id)
  ask (.createAuditLog ⟨"MFA_RECOVERY_SUCCESS","HIGH",some user.id,user.email,some matchedCode.id,ipAddress,none⟩)
  return ⟨user.id,user.email,RECOVERED⟩

def judge (p : Platform) (rateLimitKey : String) (currentLimit : Nat) (email recoveryCode : String)
    (ipAddress : Option String) (found : Option (User × List MfaRecoveryCode)) : Code Recovery :=
  match found with
  | none => refuse rateLimitKey currentLimit email ipAddress .notConfigured
  | some (user,codes) =>
    if !user.mfaEnabled || codes.isEmpty then refuse rateLimitKey currentLimit email ipAddress .notConfigured
    else
      match codes.find? fun row => verifyRecoveryCodeHash p recoveryCode row.codeHash with
      | none => refuse rateLimitKey currentLimit email ipAddress (.mismatch user.id)
      | some matchedCode => recover rateLimitKey user matchedCode ipAddress

def rateLimitKeyOf (p : Platform) (email : String) : String := String.ofList (trim (p.toLowerCase email).toList)

def recoverAccountWithCode (p : Platform) (email recoveryCode : String) (ipAddress : Option String) : Code Recovery := do
  let rateLimitKey := rateLimitKeyOf p email
  let currentLimit ← ask (.checkLimit rateLimitKey)
  let found ← ask (.findUser rateLimitKey)
  judge p rateLimitKey currentLimit email recoveryCode ipAddress found

structure Task where
  email : String
  recoveryCode : String
  ipAddress : Option String
deriving DecidableEq, Repr

def Task.program (p : Platform) (task : Task) : Program Query Value (Except String Recovery) :=
  (recoverAccountWithCode p task.email task.recoveryCode task.ipAddress).run

/-- Time passes. -/
structure Wait where
  ms : Nat

def Wait.apply (wait : Wait) (w : World) : World := { w with clock := w.clock + wait.ms }
abbrev System := Interleaving.System World Query Value (Except String Recovery)
def step (p : Platform) : System → Input Task Wait → Option (Answered Query Value) × System :=
  Interleaving.step exec (Task.program p) Wait.apply

end StellarAlerts.MfaRecovery
