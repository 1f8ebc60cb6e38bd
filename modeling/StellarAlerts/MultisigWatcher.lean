import StellarAlerts.HexText
import StellarAlerts.Interleaving
import StellarAlerts.MultisigCounting

/-!
The multisig watcher: submitted envelopes are kept under the hash of their inner
transaction, and passes count the signatures of the pending ones and tell the signers
that remain.
-/
namespace StellarAlerts.MultisigWatcher
open HexText (toHex)
open Interleaving hiding step
open MultisigCounting StellarEnvelopes

/-- Who is told when the approval of a signer is outstanding. -/
structure SignerWatcher where
  userId : String
  signerPublicKey : String
deriving DecidableEq, Repr

/-- A treasury with its watchers, one for a signer at most, and its account as the network has it. -/
structure Treasury where
  id : String
  publicKey : String
  label : Option String
  thresholdLevel : MultisigThresholdLevel
  signerWatchers : List SignerWatcher
  distinct : (signerWatchers.map SignerWatcher.signerPublicKey).Nodup
  signers : List MultisigSigner
  thresholds : MultisigThresholds

/-- The statuses that are ever written. -/
inductive Status where
  | pending
  | threshold_met
deriving DecidableEq, Repr

/-- A row is known by its inner hash. -/
structure PendingMultisigTransaction where
  innerTxHash : String
  envelopeXdr : String
  requiredThreshold : Nat
  collectedWeight : Nat
  signedByJson : List String
  notifiedJson : List String
  status : Status
deriving DecidableEq, Repr

structure PendingTxRecord where
  innerTxHash : String
  envelopeXdr : String
deriving DecidableEq, Repr

structure SignerApprovalNeeded where
  treasuryId : String
  treasuryPublicKey : String
  treasuryLabel : Option String
  innerTxHash : String
  signerPublicKey : String
  userId : String
  collectedWeight : Nat
  requiredThreshold : Nat
  totalSigners : Nat
deriving DecidableEq, Repr

/-- The data of a pass's update. -/
structure ProgressData where
  collectedWeight : Nat
  signedByJson : List String
  status : Status
deriving DecidableEq, Repr

structure SubmissionData extends ProgressData where
  envelopeXdr : String
  requiredThreshold : Nat
deriving DecidableEq, Repr

/-- The rows; the envelopes that were stored, with their inner hashes; and what the notifier was given. -/
structure World where
  rows : List PendingMultisigTransaction
  submitted : List (String × String)
  notified : List SignerApprovalNeeded

def World.row (w : World) (innerTxHash : String) : Option PendingMultisigTransaction :=
  w.rows.find? fun row => row.innerTxHash = innerTxHash

inductive Query where
  | upsert (innerTxHash : String) (data : SubmissionData)
  | findPending
  | findNotified (innerTxHash : String)
  | updateProgress (pendingTx : PendingTxRecord) (data : ProgressData)
  | notify (payload : SignerApprovalNeeded)
  | updateNotified (pendingTx : PendingTxRecord) (notifiedJson : List String)

def Value : Query → Type
  | .findPending => List PendingTxRecord
  | .findNotified _ => Option (List String)
  | _ => Unit

def SubmissionData.create (data : SubmissionData) (innerTxHash : String) : PendingMultisigTransaction where
  innerTxHash
  envelopeXdr := data.envelopeXdr
  requiredThreshold := data.requiredThreshold
  collectedWeight := data.collectedWeight
  signedByJson := data.signedByJson
  notifiedJson := []
  status := data.status

def SubmissionData.update (data : SubmissionData) (row : PendingMultisigTransaction) : PendingMultisigTransaction :=
  { row with
    envelopeXdr := data.envelopeXdr
    requiredThreshold := data.requiredThreshold
    collectedWeight := data.collectedWeight
    signedByJson := data.signedByJson
    status := data.status }

def ProgressData.update (data : ProgressData) (row : PendingMultisigTransaction) : PendingMultisigTransaction :=
  { row with
    collectedWeight := data.collectedWeight
    signedByJson := data.signedByJson
    status := data.status }

/-- The row of a hash is rewritten. -/
def World.write (w : World) (innerTxHash : String) (change : PendingMultisigTransaction → PendingMultisigTransaction) : World :=
  { w with rows := w.rows.map fun row => if row.innerTxHash = innerTxHash then change row else row }

/-- What the database answers to an update of a row that is not there. -/
def recordNotFound : String := "Record to update not found."

def World.updateRow (w : World) (innerTxHash : String) (change : PendingMultisigTransaction → PendingMultisigTransaction) :
    Except String Unit × World :=
  match w.row innerTxHash with
  | none => (.error recordNotFound,w)
  | some _ => (.ok (),w.write innerTxHash change)

def PendingMultisigTransaction.record (row : PendingMultisigTransaction) : PendingTxRecord := ⟨row.innerTxHash,row.envelopeXdr⟩

def exec (w : World) : (q : Query) → Except String (Value q) × World
  | .upsert innerTxHash data =>
    let stored := match w.row innerTxHash with
      | none => { w with rows := w.rows ++ [data.create innerTxHash] }
      | some _ => w.write innerTxHash data.update
    (.ok (),{ stored with submitted := w.submitted ++ [(innerTxHash,data.envelopeXdr)] })
  | .findPending => (.ok ((w.rows.filter fun row => row.status = .pending).map PendingMultisigTransaction.record),w)
  | .findNotified innerTxHash => (.ok ((w.row innerTxHash).map (·.notifiedJson)),w)
  | .updateProgress pendingTx data => w.updateRow pendingTx.innerTxHash data.update
  | .notify payload => (.ok (),{ w with notified := w.notified ++ [payload] })
  | .updateNotified pendingTx notifiedJson => w.updateRow pendingTx.innerTxHash fun row => { row with notifiedJson }

abbrev Code (α : Type) := Interleaving.Code Query Value α
def ask (q : Query) : Code (Value q) := query q

section Worker
variable (sdk : Sdk) (networkPassphrase : String) (treasury : Treasury)

def count (envelopeXdr : String) : Except String MultisigSignatureProgress :=
  countMultisigSignatures sdk envelopeXdr treasury.signers treasury.thresholds networkPassphrase treasury.thresholdLevel
def statusOf (progress : MultisigSignatureProgress) : Status := if progress.thresholdMet then .threshold_met else .pending

def progressData (progress : MultisigSignatureProgress) : ProgressData where
  collectedWeight := progress.collectedWeight
  signedByJson := progress.signedBy
  status := statusOf progress

def submissionData (envelopeXdr : String) (progress : MultisigSignatureProgress) : SubmissionData where
  toProgressData := progressData progress
  envelopeXdr
  requiredThreshold := progress.requiredThreshold

def approvalNeeded (pendingTx : PendingTxRecord) (progress : MultisigSignatureProgress) (watcher : SignerWatcher) :
    SignerApprovalNeeded where
  treasuryId := treasury.id
  treasuryPublicKey := treasury.publicKey
  treasuryLabel := treasury.label
  innerTxHash := pendingTx.innerTxHash
  signerPublicKey := watcher.signerPublicKey
  userId := watcher.userId
  collectedWeight := progress.collectedWeight
  requiredThreshold := progress.requiredThreshold
  totalSigners := progress.totalSigners

def toNotify (progress : MultisigSignatureProgress) (previouslyNotified : List String) : List SignerWatcher :=
  treasury.signerWatchers.filter fun w =>
    w.signerPublicKey ∈ progress.remainingSigners.map (·.key) && w.signerPublicKey ∉ previouslyNotified

/-- The loop over the watchers. -/
def notifyAll (pendingTx : PendingTxRecord) (progress : MultisigSignatureProgress) : List SignerWatcher → Code Unit
  | [] => pure ()
  | watcher :: rest => do
    ask (.notify (approvalNeeded treasury pendingTx progress watcher))
    notifyAll pendingTx progress rest

def processPendingTransaction (pendingTx : PendingTxRecord) : Code MultisigSignatureProgress := do
  let progress ← given (count sdk networkPassphrase treasury pendingTx.envelopeXdr)
  let existing : Option (List String) ← ask (.findNotified pendingTx.innerTxHash)
  let previouslyNotified := existing.getD []
  ask (.updateProgress pendingTx (progressData progress))
  if progress.thresholdMet then
    return progress
  let watchers := toNotify treasury progress previouslyNotified
  notifyAll treasury pendingTx progress watchers
  if watchers.length > 0 then
    ask (.updateNotified pendingTx (previouslyNotified ++ watchers.map SignerWatcher.signerPublicKey).eraseDups)
  return progress

/-- The loop over the pending transactions; errors are logged only. -/
def processAll : List PendingTxRecord → Code Unit
  | [] => pure ()
  | pendingTx :: rest => do
    tryCatch (do let _ ← processPendingTransaction sdk networkPassphrase treasury pendingTx) fun _ => pure ()
    processAll rest

def runMultisigWatcherPass : Code Unit := do
  let pendingTxs : List PendingTxRecord ← ask .findPending
  processAll sdk networkPassphrase treasury pendingTxs

def innerTxHash (envelopeXdr : String) : Except String String :=
  (sdk.fromXDR envelopeXdr networkPassphrase).map fun parsed => toHex (sdk.hash networkPassphrase parsed.innerTransaction.body)

def trackPendingTransaction (treasuryPublicKey envelopeXdr : String) : Code Unit := do
  if treasury.publicKey ≠ treasuryPublicKey then
    throw ("Unknown multisig treasury: " ++ treasuryPublicKey)
  let hash ← given (innerTxHash sdk networkPassphrase envelopeXdr)
  let progress ← given (count sdk networkPassphrase treasury envelopeXdr)
  ask (.upsert hash (submissionData envelopeXdr progress))

/-- A submission, or a pass. -/
inductive Task where
  | track (treasuryPublicKey envelopeXdr : String)
  | pass

def Task.program : Task → Program Query Value (Except String Unit)
  | .track treasuryPublicKey envelopeXdr =>
    (trackPendingTransaction sdk networkPassphrase treasury treasuryPublicKey envelopeXdr).run
  | .pass => (runMultisigWatcherPass sdk networkPassphrase treasury).run

abbrev System := Interleaving.System World Query Value (Except String Unit)

/-- Submissions and passes at once; any call may fail, and any of them may be cut off. -/
def step (s : System) (i : Input Task Empty) : Option (Answered Query Value) × System :=
  Interleaving.step exec (Task.program sdk networkPassphrase treasury) Empty.elim s i

end Worker

end StellarAlerts.MultisigWatcher
