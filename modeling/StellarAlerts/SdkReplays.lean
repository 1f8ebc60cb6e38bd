import StellarAlerts.NonceGuards
import StellarAlerts.SdkVerifiers

/-!
Replays against the verifiers of the SDKs. Each of them marks the nonce of a call before
it compares the signature; a verifier is changed by authentic calls only if and only if
no other call gets that far (`sdk_onlyAuthentic_iff`).
-/
namespace StellarAlerts.SdkReplays
open Histories NonceGuards
open Sha256 (utf8)
open SdkVerifiers

/-- A call is let to the nonces if its header can be parsed and is in time. -/
def goGuard (v : Go.Verifier) : Guard Go.Call (List UInt8) where
  admits call :=
    match Go.parseSignatureHeader call.signatureHeader with
    | .error _ => false
    | .ok (timestamp,_) => (v.checkDrift call timestamp).isNone
  nonceOf call := if call.nonce = [] then none else some call.nonce
  authentic call :=
    match Go.parseSignatureHeader call.signatureHeader with
    | .error _ => false
    | .ok (timestamp,signature) => signature == v.sign call.payload timestamp call.nonce

def rustGuard (v : Rust.WebhookVerifier) (platform : Rust.Platform) : Guard Rust.Call String where
  admits call :=
    match Rust.parseSignatureHeader call.signatureHeader with
    | .error _ => false
    | .ok (timestamp,_) => (v.checkDrift platform call timestamp).isNone
  nonceOf call := call.nonce
  authentic call :=
    match Rust.parseSignatureHeader call.signatureHeader with
    | .error _ => false
    | .ok (timestamp,signature) => signature == v.sign platform call.payload timestamp call.nonce

def pythonGuard (python : Python.Interpreter) (v : Python.WebhookVerifier) : Guard Python.Call String where
  admits call :=
    match python.parseSignatureHeader call.signatureHeader with
    | none => false
    | some (timestamp,_) => (v.checkDrift python call timestamp).isNone
  nonceOf call := call.truthyNonce
  authentic call :=
    match python.parseSignatureHeader call.signatureHeader with
    | none => false
    | some (timestamp,signature) =>
      match v.sign python call.payload timestamp call.nonce with
      | .error _ => false
      | .ok expectedSignature => Python.compareDigest signature expectedSignature == .ok true

variable {timestamp : Int}

theorem go_checkDrift {v : Go.Verifier} {call : Go.Call} {refused : VerificationResult}
    (late : v.checkDrift call timestamp = some refused) : refused.valid = false := by
  unfold Go.Verifier.checkDrift at late
  dsimp only at late
  split at late
  · rw [← Option.some.inj late]
  · cases late

theorem go_checkSignature (v : Go.Verifier) (call : Go.Call) (timestamp : Int) (signature : List UInt8) :
    (v.checkSignature call timestamp signature).valid = (signature == v.sign call.payload timestamp call.nonce) := by
  unfold Go.Verifier.checkSignature
  by_cases same : signature = v.sign call.payload timestamp call.nonce
  · simp [same]
  · simp [same]

theorem go_implements (v : Go.Verifier) : Implements (goGuard v) v.Verify VerificationResult.valid := by
  intro seen call
  unfold Go.Verifier.Verify Guard.step goGuard
  cases parsed : Go.parseSignatureHeader call.signatureHeader with
  | error err => simp [parsed]
  | ok found =>
    obtain ⟨timestamp,signature⟩ := found
    cases late : v.checkDrift call timestamp with
    | some refused => simp [parsed,late,go_checkDrift late]
    | none =>
      by_cases none_ : call.nonce = []
      · simp [parsed,late,none_,go_checkSignature]
      · by_cases known : call.nonce ∈ seen
        · simp [parsed,late,none_,known]
        · simp [parsed,late,none_,known,go_checkSignature]

variable {refused : Ended}

variable {v : Rust.WebhookVerifier}

theorem rust_boundDrift {drift : Except String Int} (late : v.boundDrift drift = some refused) : refused.valid = false := by
  cases drift with
  | error panic =>
    rw [← Option.some.inj late]
    rfl
  | ok drift =>
    rw [Rust.WebhookVerifier.boundDrift] at late
    split at late
    · rw [← Option.some.inj late]
      rfl
    · cases late

theorem rust_checkDrift {platform : Rust.Platform} {call : Rust.Call}
    (late : v.checkDrift platform call timestamp = some refused) : refused.valid = false := by
  unfold Rust.WebhookVerifier.checkDrift at late
  split at late
  · rw [← Option.some.inj late]
    rfl
  · exact rust_boundDrift late

theorem rust_checkSignature (v : Rust.WebhookVerifier) (platform : Rust.Platform) (call : Rust.Call) (timestamp : Int)
    (signature : String) :
    (v.checkSignature platform call timestamp signature).valid =
      (signature == v.sign platform call.payload timestamp call.nonce) := by
  unfold Rust.WebhookVerifier.checkSignature
  by_cases same : signature = v.sign platform call.payload timestamp call.nonce
  · simp [same]
  · simp [same]

theorem rust_implements (v : Rust.WebhookVerifier) (platform : Rust.Platform) :
    Implements (rustGuard v platform) (v.verify platform) Ended.valid := by
  intro seen call
  unfold Rust.WebhookVerifier.verify Guard.step rustGuard
  cases parsed : Rust.parseSignatureHeader call.signatureHeader with
  | error e => simp [parsed,Ended.valid]
  | ok found =>
    obtain ⟨timestamp,signature⟩ := found
    cases late : v.checkDrift platform call timestamp with
    | some refused => simp [parsed,late,rust_checkDrift late]
    | none =>
      cases nonceIs : call.nonce with
      | none => simp [parsed,late,nonceIs,Ended.valid,rust_checkSignature]
      | some nonce =>
        by_cases known : nonce ∈ seen
        · simp [parsed,late,nonceIs,known,Ended.valid]
        · simp [parsed,late,nonceIs,known,Ended.valid,rust_checkSignature]

theorem python_checkDrift {python : Python.Interpreter} {v : Python.WebhookVerifier} {call : Python.Call}
    (late : v.checkDrift python call timestamp = some refused) : refused.valid = false := by
  unfold Python.WebhookVerifier.checkDrift at late
  dsimp only at late
  split at late
  · split at late
    · rw [← Option.some.inj late]
      rfl
    · rw [← Option.some.inj late]
      rfl
    · rw [← Option.some.inj late]
      rfl
  · cases late

theorem python_checkSignature (python : Python.Interpreter) (v : Python.WebhookVerifier) (call : Python.Call)
    (timestamp : Int) (signature : String) :
    (v.checkSignature python call timestamp signature).valid =
      match v.sign python call.payload timestamp call.nonce with
      | .error _ => false
      | .ok expectedSignature => Python.compareDigest signature expectedSignature == .ok true := by
  unfold Python.WebhookVerifier.checkSignature
  cases v.sign python call.payload timestamp call.nonce with
  | error e => rfl
  | ok expectedSignature =>
    simp only
    cases Python.compareDigest signature expectedSignature with
    | error e => rfl
    | ok same =>
      cases same with
      | false => rfl
      | true => rfl

theorem python_implements (python : Python.Interpreter) (v : Python.WebhookVerifier) :
    Implements (pythonGuard python v) (v.verify python) Ended.valid := by
  intro seen call
  unfold Python.WebhookVerifier.verify Guard.step pythonGuard
  cases parsed : python.parseSignatureHeader call.signatureHeader with
  | none => simp [parsed,Ended.valid]
  | some found =>
    obtain ⟨timestamp,signature⟩ := found
    cases late : v.checkDrift python call timestamp with
    | some refused => simp [parsed,late,python_checkDrift late]
    | none =>
      cases nonceIs : call.truthyNonce with
      | none => simp [parsed,late,nonceIs,python_checkSignature]
      | some nonce =>
        by_cases known : nonce ∈ seen
        · simp [parsed,late,nonceIs,known,Ended.valid]
        · simp [parsed,late,nonceIs,known,python_checkSignature]

/-- Each verifier is changed by authentic calls only in a run if and only if no call of it, with a header that can be parsed and is in
    time, names a nonce that is not seen and carries another signature. -/
theorem sdk_onlyAuthentic_iff (go : Go.Verifier) (platform : Rust.Platform) (rust : Rust.WebhookVerifier)
    (interpreter : Python.Interpreter) (python : Python.WebhookVerifier) (goCalls : List Go.Call)
    (rustCalls : List Rust.Call) (pythonCalls : List Python.Call) :
    (OnlyAuthentic (goGuard go) go.Verify VerificationResult.valid goCalls ↔
      ∀ t ∈ history go.Verify [] goCalls, (goGuard go).burns t.before t.input = false) ∧
    (OnlyAuthentic (rustGuard rust platform) (rust.verify platform) Ended.valid rustCalls ↔
      ∀ t ∈ history (rust.verify platform) [] rustCalls, (rustGuard rust platform).burns t.before t.input = false) ∧
    (OnlyAuthentic (pythonGuard interpreter python) (python.verify interpreter) Ended.valid pythonCalls ↔
      ∀ t ∈ history (python.verify interpreter) [] pythonCalls,
        (pythonGuard interpreter python).burns t.before t.input = false) :=
  ⟨onlyAuthentic_iff (go_implements go) goCalls,onlyAuthentic_iff (rust_implements rust platform) rustCalls,
    onlyAuthentic_iff (python_implements interpreter python) pythonCalls⟩

def verifier : Go.Verifier := ⟨utf8 "s",300000⟩

/-- A request with its signature. -/
def genuine : Go.Call :=
  ⟨utf8 "p",utf8 "t=1,v1=" ++ verifier.sign (utf8 "p") 1 (utf8 "n"),utf8 "n",1⟩

/-- Its nonce with a signature that is made up. -/
def forged : Go.Call := ⟨utf8 "x",utf8 "t=1,v1=0",utf8 "n",1⟩

/-- The nonce is marked for the forged request, and the genuine one is refused. -/
theorem forged_burns :
    (verifier.Verify [] forged).1 = ⟨false,some "Invalid HMAC signature"⟩ ∧
      run verifier.Verify [] [forged] = [utf8 "n"] ∧
      (verifier.Verify [] genuine).1.valid = true ∧
      (verifier.Verify (run verifier.Verify [] [forged]) genuine).1 =
        ⟨false,some "Replay attack detected: nonce already used"⟩ ∧
      ¬ OnlyAuthentic (goGuard verifier) verifier.Verify VerificationResult.valid [forged,genuine] := by
  have refused : (verifier.Verify [] forged).1 = ⟨false,some "Invalid HMAC signature"⟩ := by decide +kernel
  have marked : run verifier.Verify [] [forged] = [utf8 "n"] := by decide +kernel
  refine ⟨refused,marked,by decide +kernel,by decide +kernel,?_⟩
  intro only
  have same := only.unchanged (transition verifier.Verify [] forged) (by simp) (congrArg VerificationResult.valid refused)
  change run verifier.Verify [] [forged] = [] at same
  rw [marked] at same
  cases same

end StellarAlerts.SdkReplays
