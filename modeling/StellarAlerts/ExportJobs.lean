import Mathlib.Data.List.Sort
import StellarAlerts.DateTexts
import StellarAlerts.Interleaving
import StellarAlerts.UniqueTables
import StellarAlerts.Utf16Text

/-!
Export jobs: their rows, the files that they leave and the calls that work on both.
-/
namespace StellarAlerts.ExportJobs
open DateTexts
open Interleaving hiding step
open UniqueTables Utf16Text

/-! ### Rows -/

inductive ExportType where
  | ledger_csv
  | ledger_pdf
  | tax_csv
deriving DecidableEq, Repr

inductive ExportStatus where
  | queued
  | running
  | completed
  | failed
  | expired
deriving DecidableEq, Repr

inductive TaxExportFormat where
  | cointracker
  | koinly
  | irs8949
deriving DecidableEq, Repr

structure CreateExportInput where
  type : ExportType
  walletId : Option String
  periodStart : Option String
  periodEnd : Option String
  format : Option TaxExportFormat
deriving DecidableEq, Repr

/-- The dates are stored as their ISO texts, which determine them. -/
structure ExportJobParams where
  walletId : Option String
  periodStart : Option Date
  periodEnd : Option Date
  format : Option TaxExportFormat
deriving DecidableEq

/-- Times are in milliseconds. -/
structure ExportJob where
  id : String
  userId : String
  type : ExportType
  params : ExportJobParams
  status : ExportStatus
  progress : Nat
  rowsTotal : Option Nat
  rowsProcessed : Nat
  fileName : Option String
  downloadName : Option String
  contentType : Option String
  fileSize : Option Nat
  error : Option String
  startedAt : Option Nat
  completedAt : Option Nat
  expiresAt : Option Nat
  createdAt : Nat
  updatedAt : Nat
deriving DecidableEq

def ExportJob.clash (a b : ExportJob) : Bool := a.id == b.id
def ExportJob.isActive (job : ExportJob) : Bool := job.status = .queued || job.status = .running

structure User where
  id : String
  email : String
deriving DecidableEq, Repr

structure Wallet where
  id : String
  userId : String
  publicKey : String
  label : Option String
deriving DecidableEq, Repr

structure Payment where
  id : String
  walletId : String
  txHash : String
  fromAddress : String
  amount : String
  asset : String
  receivedAt : Int
deriving DecidableEq, Repr

structure LedgerStatementPayment where
  txHash : String
  fromAddress : String
  amount : String
  asset : String
  receivedAt : Int
deriving DecidableEq, Repr

def Payment.row (payment : Payment) : LedgerStatementPayment :=
  ⟨payment.txHash,payment.fromAddress,payment.amount,payment.asset,payment.receivedAt⟩

structure LedgerStatementInput where
  userEmail : String
  walletLabel : Option String
  publicKey : String
  periodStart : Date
  periodEnd : Date
  payments : List LedgerStatementPayment

/-- The settings, and what the generators, the database and the language make of their arguments. -/
structure Platform where
  EXPORT_MAX_ACTIVE_JOBS_PER_USER : Nat
  EXPORT_MAX_ROWS : Nat
  EXPORT_BATCH_SIZE : Nat
  batchSize_pos : 0 < EXPORT_BATCH_SIZE
  EXPORT_TTL_SECONDS : Nat
  EXPORT_STALE_JOB_MS : Nat
  /-- the default of the identifiers of jobs -/
  cuid : Nat → String
  cuid_injective : Function.Injective cuid
  /-- `Date.parse` of forms that the language leaves to the engine -/
  furtherDates : String → Option Date
  /-- `Math.floor((rows / rowsTotal) * 90)` on doubles -/
  ninetieths : (rows rowsTotal : Nat) → Nat
  /-- the collation of identifiers in `orderBy` -/
  inOrder : String → String → Bool
  generateLedgerStatementCsv : List LedgerStatementPayment → List UInt8
  generateTaxExportCsv : List LedgerStatementPayment → TaxExportFormat → List UInt8
  generateLedgerStatementPdf : LedgerStatementInput → Except String (List UInt8)

/-- An error whose message is safe to show to the job's owner. -/
structure ExportError where
  message : String
  statusCode : Nat
  code : String
deriving DecidableEq, Repr

/-! ### Parameters -/

def isDateOnly (value : String) : Bool :=
  match value.toList with
  | [a,b,c,d,'-',e,f,'-',g,h] => [a,b,c,d,e,f,g,h].all Char.isDigit
  | _ => false

def toDate (p : Platform) (value : String) (endOfDay : Bool) : Option Date :=
  if isDateOnly value then parse p.furtherDates (value ++ if endOfDay then "T23:59:59.999Z" else "T00:00:00.000Z")
  else parse p.furtherDates value

/-- `new Date(ms)`; none where it is not valid. -/
def ofMs (ms : Int) : Option Date :=
  if inRange : -8640000000000000 ≤ ms ∧ ms ≤ 8640000000000000 then some ⟨ms,inRange⟩ else none

def DAY_MS : Int := 24 * 60 * 60 * 1000

/-- A given text with its date, which `toISOString` asks to be valid. -/
def givenDate (p : Platform) (value : Option String) (endOfDay : Bool) : Except String (Option Date) :=
  match value with
  | none => .ok none
  | some text => (toDate p text endOfDay).elim (.error "Invalid time value") fun date => .ok (some date)

/-- An empty text is none. -/
def textOf (value : Option String) : Option String := value.filter (· ≠ "")

def resolveExportParams (p : Platform) (input : CreateExportInput) (now : Nat) : Except String ExportJobParams := do
  let givenEnd ← givenDate p (textOf input.periodEnd) true
  let givenStart ← givenDate p (textOf input.periodStart) false
  if input.type = .tax_csv then
    return ⟨input.walletId,givenStart,givenEnd,some (input.format.getD .cointracker)⟩
  else
    let periodEnd ← (givenEnd.or (ofMs now)).elim (.error "Invalid time value") .ok
    let periodStart ← (givenStart.or (ofMs (periodEnd.ms - 365 * DAY_MS))).elim (.error "Invalid time value") .ok
    return ⟨input.walletId,some periodStart,some periodEnd,none⟩

structure PaymentWhere where
  walletId : Option String
  userId : String
  gte : Option Date
  lte : Option Date
deriving DecidableEq

/-- An empty identifier of a wallet is like none. -/
def buildPaymentWhere (userId : String) (params : ExportJobParams) : PaymentWhere :=
  ⟨textOf params.walletId,userId,params.periodStart,params.periodEnd⟩

def MAX_ERROR_LENGTH : Nat := 500

/-- Half a character at the cut is left out. -/
def truncateError (message : String) : String :=
  if MAX_ERROR_LENGTH < utf16Length message then (substring message (MAX_ERROR_LENGTH - 1)).getD "" ++ "…" else message

/-! ### Files -/

structure StoredFile where
  data : List UInt8
  mtimeMs : Nat
deriving DecidableEq, Repr

def TMP_SUFFIX : String := ".tmp"
def ENOENT : String := "ENOENT"

/-- `/^[A-Za-z0-9_-]+\.(csv|pdf)$/`. -/
def isSafeFileName (fileName : String) : Bool :=
  match fileName.toList.reverse with
  | c :: b :: a :: '.' :: stem =>
    ([a,b,c] = ['c','s','v'] || [a,b,c] = ['p','d','f']) && !stem.isEmpty &&
      stem.all fun x => x.isAlphanum || x = '_' || x = '-'
  | _ => false

/-! ### The world -/

structure World where
  clock : Nat
  user : List User
  wallet : List Wallet
  payment : List Payment
  exportJob : Table ExportJob ExportJob.clash
  created : Nat
  files : List (String × StoredFile)

def World.job (w : World) (id : String) : Option ExportJob := w.exportJob.rows.find? fun row => row.id == id
def World.status (w : World) (id : String) : Option ExportStatus := (w.job id).map ExportJob.status

/-- The number of jobs of the user that are queued or running. -/
def World.active (w : World) (userId : String) : Nat :=
  w.exportJob.rows.countP fun row => row.userId == userId && row.isActive

def World.file (w : World) (name : String) : Option StoredFile := (w.files.find? fun entry => entry.1 == name).map Prod.snd
def World.removeFile (w : World) (name : String) : World := { w with files := w.files.filter fun entry => entry.1 != name }
def World.putFile (w : World) (name : String) (file : StoredFile) : World :=
  { w with files := (name,file) :: (w.removeFile name).files }

/-- Rows with new columns; the identifier stays, and `updatedAt` is the time of the query. -/
def ExportJob.write (which : ExportJob → Bool) (clock : Nat) (columns : ExportJob → ExportJob) (row : ExportJob) : ExportJob :=
  if which row then { columns row with id := row.id, updatedAt := clock } else row

theorem write_id (which : ExportJob → Bool) (clock : Nat) (columns : ExportJob → ExportJob) (row : ExportJob) :
    (row.write which clock columns).id = row.id := by
  unfold ExportJob.write
  split <;> rfl

theorem write_clash (which : ExportJob → Bool) (clock : Nat) (columns : ExportJob → ExportJob) (a b : ExportJob) :
    (a.write which clock columns).clash (b.write which clock columns) = a.clash b := by
  rw [ExportJob.clash,ExportJob.clash,write_id,write_id]

/-- `updateMany`. -/
def World.updateMany (w : World) (which : ExportJob → Bool) (columns : ExportJob → ExportJob) : World :=
  { w with exportJob := w.exportJob.map (ExportJob.write which w.clock columns) (write_clash which w.clock columns) }

/-! ### Queries -/

/-- What the last update of a job writes. -/
structure Finished where
  rows : Nat
  fileName : String
  downloadName : String
  contentType : String
  fileSize : Nat
  completedAt : Nat
  expiresAt : Nat
deriving DecidableEq, Repr

def ExportJob.claim (startedAt : Nat) (row : ExportJob) : ExportJob :=
  { row with status := .running, startedAt := some startedAt, progress := 0, rowsProcessed := 0 }

def ExportJob.complete (finished : Finished) (row : ExportJob) : ExportJob :=
  { row with
    status := .completed, progress := 100, rowsTotal := some finished.rows, rowsProcessed := finished.rows
    fileName := some finished.fileName, downloadName := some finished.downloadName
    contentType := some finished.contentType, fileSize := some finished.fileSize
    completedAt := some finished.completedAt, expiresAt := some finished.expiresAt }

def ExportJob.fail (error : String) (completedAt : Nat) (row : ExportJob) : ExportJob :=
  { row with status := .failed, error := some error, fileName := none, completedAt := some completedAt }
def ExportJob.expire (row : ExportJob) : ExportJob := { row with status := .expired, fileName := none }
def TIMED_OUT : String := "Export timed out before it finished. Please try again."
def ExportJob.timeOut (now : Nat) (row : ExportJob) : ExportJob :=
  { row with status := .failed, error := some TIMED_OUT, completedAt := some now }

inductive Query where
  /-- `new Date()` -/
  | now
  | findWallet (id userId : String)
  | countActive (userId : String)
  | createJob (userId : String) (type : ExportType) (params : ExportJobParams)
  /-- from `queued` to `running` -/
  | claimJob (id : String) (startedAt : Nat)
  /-- with the e-mail of its user -/
  | findJob (id : String)
  | countPayments (filter : PaymentWhere)
  | setRowsTotal (id : String) (rowsTotal : Nat)
  | findPayments (filter : PaymentWhere) (take : Nat) (cursor : Option String)
  | setProgress (id : String) (rowsProcessed progress : Nat)
  | completeJob (id : String) (finished : Finished)
  | failJob (id error : String) (completedAt : Nat)
  /-- completed jobs that expire by then -/
  | findExpired (now : Nat)
  | expireJob (id : String)
  /-- the jobs that nothing has written for too long -/
  | failStale (now : Nat)
  | mkdir
  | writeFile (name : String) (data : List UInt8)
  | rename (name newName : String)
  | rm (name : String)
  /-- size and time -/
  | stat (name : String)
  | unlink (name : String)
  | readdir
deriving DecidableEq

abbrev Value : Query → Type
  | .now => Nat
  | .findWallet _ _ => Option Wallet
  | .countActive _ => Nat
  | .createJob _ _ _ => ExportJob
  | .claimJob _ _ => Nat
  | .findJob _ => Option (ExportJob × Option String)
  | .countPayments _ => Nat
  | .findPayments _ _ _ => List Payment
  | .findExpired _ => List (String × Option String)
  | .expireJob _ => Nat
  | .failStale _ => Nat
  | .stat _ => Nat × Nat
  | .readdir => List String
  | _ => Unit

abbrev Code := Interleaving.Code Query Value
def P2002 : String := "Unique constraint failed"
def P2025 : String := "Record to update not found."
def CLEANUP_BATCH : Nat := 500

/-- `update({ where: { id } })`. -/
def World.updateJob (w : World) (id : String) (columns : ExportJob → ExportJob) : Except String Unit × World :=
  match w.job id with
  | none => (.error P2025,w)
  | some _ => (.ok (),w.updateMany (fun row => row.id == id) columns)

def World.payments (w : World) (p : Platform) (filter : PaymentWhere) : List Payment :=
  (w.payment.filter fun payment =>
    (filter.walletId.all fun walletId => payment.walletId == walletId) &&
      (w.wallet.any fun wallet => wallet.id == payment.walletId && wallet.userId == filter.userId) &&
      (filter.gte.all fun gte => gte.ms ≤ payment.receivedAt) &&
      filter.lte.all fun lte => payment.receivedAt ≤ lte.ms).insertionSort fun a b =>
        b.receivedAt < a.receivedAt ∨ a.receivedAt = b.receivedAt ∧ p.inOrder b.id a.id = true

def behind (cursor : Option String) (rows : List Payment) : List Payment :=
  match cursor with
  | none => rows
  | some id => (rows.dropWhile fun row => row.id != id).tail

def newJob (id userId : String) (type : ExportType) (params : ExportJobParams) (clock : Nat) : ExportJob :=
  { id, userId, type, params, status := .queued, progress := 0, rowsTotal := none, rowsProcessed := 0, fileName := none
    downloadName := none, contentType := none, fileSize := none, error := none, startedAt := none, completedAt := none
    expiresAt := none, createdAt := clock, updatedAt := clock }

def isQueued (id : String) (row : ExportJob) : Bool := row.id == id && row.status = .queued
def isCompleted (id : String) (row : ExportJob) : Bool := row.id == id && row.status = .completed
def isExpired (now : Nat) (row : ExportJob) : Bool := row.status = .completed && row.expiresAt.any (· ≤ now)
def isStale (p : Platform) (now : Nat) (row : ExportJob) : Bool :=
  row.isActive && row.updatedAt + p.EXPORT_STALE_JOB_MS < now

def exec (p : Platform) (w : World) : (q : Query) → Except String (Value q) × World
  | .now => (.ok w.clock,w)
  | .findWallet id userId => (.ok (w.wallet.find? fun row => row.id == id && row.userId == userId),w)
  | .countActive userId => (.ok (w.active userId),w)
  | .createJob userId type params =>
    let job := newJob (p.cuid w.created) userId type params w.clock
    match w.exportJob.insert job with
    | none => (.error P2002,w)
    | some table => (.ok job,{ w with exportJob := table, created := w.created + 1 })
  | .claimJob id startedAt =>
    (.ok (w.exportJob.rows.countP (isQueued id)),w.updateMany (isQueued id) (ExportJob.claim startedAt))
  | .findJob id =>
    (.ok ((w.job id).map fun job => (job,(w.user.find? fun user => user.id == job.userId).map User.email)),w)
  | .countPayments filter => (.ok (w.payments p filter).length,w)
  | .setRowsTotal id rowsTotal => w.updateJob id fun row => { row with rowsTotal := some rowsTotal }
  | .findPayments filter take cursor => (.ok ((behind cursor (w.payments p filter)).take take),w)
  | .setProgress id rowsProcessed progress => w.updateJob id fun row => { row with rowsProcessed, progress }
  | .completeJob id finished => w.updateJob id (ExportJob.complete finished)
  | .failJob id error completedAt => w.updateJob id (ExportJob.fail error completedAt)
  | .findExpired now =>
    (.ok (((w.exportJob.rows.filter (isExpired now)).take CLEANUP_BATCH).map fun row => (row.id,row.fileName)),w)
  | .expireJob id =>
    (.ok (w.exportJob.rows.countP (isCompleted id)),w.updateMany (isCompleted id) ExportJob.expire)
  | .failStale now =>
    (.ok (w.exportJob.rows.countP (isStale p now)),w.updateMany (isStale p now) (ExportJob.timeOut now))
  | .mkdir => (.ok (),w)
  | .writeFile name data => (.ok (),w.putFile name ⟨data,w.clock⟩)
  | .rename name newName =>
    match w.file name with
    | none => (.error ENOENT,w)
    | some file => (.ok (),(w.removeFile name).putFile newName file)
  | .rm name => (.ok (),w.removeFile name)
  | .stat name =>
    match w.file name with
    | none => (.error ENOENT,w)
    | some file => (.ok (file.data.length,file.mtimeMs),w)
  | .unlink name =>
    match w.file name with
    | none => (.error ENOENT,w)
    | some _ => (.ok (),w.removeFile name)
  | .readdir => (.ok (w.files.map Prod.fst),w)

/-! ### Programs -/

def ask (q : Query) : Code (Value q) := query q

def ownsWallet (userId : String) (walletId : Option String) : Code Bool :=
  match walletId with
  | none => return true
  | some id => do
    let wallet ← ask (.findWallet id userId)
    return wallet.isSome

/-- What `enqueueExportJob` hands over are the deliveries of a run; it throws nothing. -/
def createExport (p : Platform) (userId : String) (input : CreateExportInput) : Code (Except ExportError ExportJob) := do
  let now ← ask .now
  let params ← given (resolveExportParams p input now)
  let owned ← ownsWallet userId (textOf params.walletId)
  if !owned then return .error ⟨"Wallet not found",404,"WALLET_NOT_FOUND"⟩
  else
    let active ← ask (.countActive userId)
    if p.EXPORT_MAX_ACTIVE_JOBS_PER_USER ≤ active then
      return .error
        ⟨s!"You already have {active} export(s) in progress. Wait for one to finish before starting another.",429,
          "TOO_MANY_ACTIVE_EXPORTS"⟩
    else
      let job ← ask (.createJob userId input.type params)
      return .ok job

inductive Extension where
  | csv
  | pdf
deriving DecidableEq, Repr

def Extension.text : Extension → String
  | .csv => "csv"
  | .pdf => "pdf"

def TaxExportFormat.text : TaxExportFormat → String
  | .cointracker => "cointracker"
  | .koinly => "koinly"
  | .irs8949 => "irs8949"

def fileNameOf (id : String) (extension : Extension) : String := id ++ "." ++ extension.text

structure Rendered where
  data : List UInt8
  extension : Extension
  contentType : String
  downloadName : String
deriving DecidableEq, Repr

def walletMeta (userId : String) (walletId : Option String) : Code (Option Wallet) :=
  match walletId with
  | none => return none
  | some id => ask (.findWallet id userId)

def epoch : Date := ⟨0,zero_inRange⟩
def periodLabel (params : ExportJobParams) : String :=
  (params.periodStart.map fun date => String.ofList ((toISOString date).toList.take 10)).getD ""

def render (p : Platform) (type : ExportType) (params : ExportJobParams) (payments : List LedgerStatementPayment)
    (userEmail userId : String) : Code Rendered :=
  match type with
  | .ledger_csv =>
    return ⟨p.generateLedgerStatementCsv payments,.csv,"text/csv; charset=utf-8",s!"ledger-statement-{periodLabel params}.csv"⟩
  | .tax_csv =>
    let format := params.format.getD .cointracker
    return ⟨p.generateTaxExportCsv payments format,.csv,"text/csv; charset=utf-8",s!"tax-export-{format.text}.csv"⟩
  | .ledger_pdf => do
    let wallet ← walletMeta userId (textOf params.walletId)
    let data ← given (p.generateLedgerStatementPdf
      ⟨userEmail,wallet.bind Wallet.label,(wallet.map Wallet.publicKey).getD "All linked wallets",
        params.periodStart.getD epoch,params.periodEnd.getD epoch,payments⟩)
    return ⟨data,.pdf,"application/pdf",s!"ledger-statement-{periodLabel params}.pdf"⟩

/-- The loop of `fetchPayments`. A batch that does not end it has at least one row, so that as many rounds as
    there are rows to read are enough. -/
def fetchPayments (p : Platform) (jobId : String) (filter : PaymentWhere) (rowsTotal : Nat) :
    Nat → List LedgerStatementPayment → Option String → Code (List LedgerStatementPayment)
  | 0, rows, _ => return rows
  | rounds + 1, rows, cursor =>
    if p.EXPORT_MAX_ROWS ≤ rows.length then return rows
    else do
      let batch ← ask (.findPayments filter (min p.EXPORT_BATCH_SIZE (p.EXPORT_MAX_ROWS - rows.length)) cursor)
      let sofar := rows ++ batch.map Payment.row
      if batch ≠ [] then
        ask (.setProgress jobId sofar.length (if 0 < rowsTotal then min 90 (p.ninetieths sofar.length rowsTotal) else 90))
      if batch.length < p.EXPORT_BATCH_SIZE then return sofar
      else fetchPayments p jobId filter rowsTotal rounds sofar (batch.getLast?.map Payment.id)

def resolveExportFilePath (fileName : String) : Code Unit :=
  if isSafeFileName fileName then return () else throw s!"Refusing unsafe export file name: {fileName}"

def writeExportFile (fileName : String) (data : List UInt8) : Code Nat := do
  resolveExportFilePath fileName
  ask .mkdir
  tryCatch (do
    ask (.writeFile (fileName ++ TMP_SUFFIX) data)
    ask (.rename (fileName ++ TMP_SUFFIX) fileName)) fun error => do
      ask (.rm (fileName ++ TMP_SUFFIX))
      throw error
  let stat ← ask (.stat fileName)
  return stat.1

def deleteExportFile (fileName : String) : Code Bool := do
  resolveExportFilePath fileName
  tryCatch (do
    ask (.unlink fileName)
    return true) fun error => if error = ENOENT then return false else throw error

/-- What the body of `processExportJob` comes to before a file is written. -/
inductive Prepared where
  | vanished
  | refused (error : ExportError)
  | rendered (rendered : Rendered) (rows : Nat)

def prepare (p : Platform) (jobId : String) : Code Prepared := do
  let found ← ask (.findJob jobId)
  match found with
  | none => return .vanished
  | some (job,email) =>
    let filter := buildPaymentWhere job.userId job.params
    let rowsTotal ← ask (.countPayments filter)
    if p.EXPORT_MAX_ROWS < rowsTotal then
      return .refused
        ⟨s!"This export matches {rowsTotal} payments, above the {p.EXPORT_MAX_ROWS} row limit. Narrow the date range or select a single wallet.",
          400,"EXPORT_ERROR"⟩
    else
      ask (.setRowsTotal jobId rowsTotal)
      let payments ← fetchPayments p jobId filter rowsTotal p.EXPORT_MAX_ROWS [] none
      let rendered ← render p job.type job.params payments (email.getD "") job.userId
      return .rendered rendered payments.length

def store (p : Platform) (jobId : String) (rendered : Rendered) (rows : Nat) : Code Unit := do
  let fileName := fileNameOf jobId rendered.extension
  let fileSize ← writeExportFile fileName rendered.data
  let completedAt ← ask .now
  ask (.completeJob jobId
    ⟨rows,fileName,rendered.downloadName,rendered.contentType,fileSize,completedAt,completedAt + p.EXPORT_TTL_SECONDS * 1000⟩)

inductive Processed where
  | completed
  | failed
  | skipped
deriving DecidableEq, Repr

def GENERIC_FAILURE : String := "Export generation failed. Please try again."

/-- The `catch` of `processExportJob`. -/
def recordFailure (jobId : String) (fileName : Option String) (userMessage : String) : Code Processed := do
  match fileName with
  | none => pure ()
  | some name =>
    let _ ← attempt (deleteExportFile name)
  let _ ← attempt do
    let completedAt ← ask .now
    ask (.failJob jobId (truncateError userMessage) completedAt)
  return .failed

/-- The rest of a call that has claimed the job. -/
def executeJob (p : Platform) (jobId : String) : Code Processed := do
  let prepared ← attempt (prepare p jobId)
  match prepared with
  | .error _ => recordFailure jobId none GENERIC_FAILURE
  | .ok .vanished => return .skipped
  | .ok (.refused error) => recordFailure jobId none error.message
  | .ok (.rendered rendered rows) =>
    let stored ← attempt (store p jobId rendered rows)
    match stored with
    | .error _ => recordFailure jobId (some (fileNameOf jobId rendered.extension)) GENERIC_FAILURE
    | .ok _ => return .completed

def processExportJob (p : Platform) (jobId : String) : Code Processed := do
  let startedAt ← ask .now
  let claimed ← ask (.claimJob jobId startedAt)
  if claimed = 0 then return .skipped else executeJob p jobId

structure CleanupReport where
  expired : Nat
  filesDeleted : Nat
  staleFailed : Nat
  tempFilesRemoved : Nat
deriving DecidableEq, Repr

def deleteJobFile (fileName : Option String) : Code Bool :=
  match fileName with
  | none => return false
  | some name => deleteExportFile name

/-- The jobs that expired and the files that were deleted; a job whose file or row cannot be changed is passed over. -/
def expireJobs : List (String × Option String) → (expired filesDeleted : Nat) → Code (Nat × Nat)
  | [], expired, filesDeleted => return (expired,filesDeleted)
  | (id,fileName) :: rest, expired, filesDeleted => do
    let deleted ← attempt (deleteJobFile fileName)
    match deleted with
    | .error _ => expireJobs rest expired filesDeleted
    | .ok gone =>
      let updated ← attempt (ask (.expireJob id))
      expireJobs rest (expired + updated.toOption.getD 0) (filesDeleted + gone.toNat)

def isTemp (name : String) : Bool := TMP_SUFFIX.toList.isSuffixOf name.toList

def sweepFile (p : Platform) (now : Nat) (entry : String) : Code Bool := do
  let stat ← ask (.stat entry)
  if stat.2 + p.EXPORT_STALE_JOB_MS ≤ now then
    ask (.rm entry)
    return true
  else return false

def sweepFiles (p : Platform) (now : Nat) : List String → Nat → Code Nat
  | [], removed => return removed
  | entry :: rest, removed =>
    if !isTemp entry then sweepFiles p now rest removed
    else do
      let swept ← attempt (sweepFile p now entry)
      sweepFiles p now rest (removed + (swept.toOption.getD false).toNat)

def sweepStaleTempFiles (p : Platform) (now : Nat) : Code Nat := do
  let entries ← tryCatch (some <$> ask .readdir) fun error => if error = ENOENT then return none else throw error
  match entries with
  | none => return 0
  | some names => sweepFiles p now names 0

def cleanupExpiredExports (p : Platform) : Code CleanupReport := do
  let now ← ask .now
  let expiredJobs ← ask (.findExpired now)
  let counts ← expireJobs expiredJobs 0 0
  let stale ← ask (.failStale now)
  let tempFilesRemoved ← sweepStaleTempFiles p now
  return ⟨counts.1,counts.2,stale,tempFilesRemoved⟩

/-! ### The system -/

inductive Task where
  | createExport (userId : String) (input : CreateExportInput)
  | processExportJob (jobId : String)
  | cleanupExpiredExports
deriving DecidableEq, Repr

inductive Reply where
  | created (result : Except ExportError ExportJob)
  | processed (status : Processed)
  | cleaned (report : CleanupReport)
deriving DecidableEq

def Task.program (p : Platform) : Task → Program Query Value (Except String Reply)
  | .createExport userId input => (.created <$> ExportJobs.createExport p userId input : Code Reply).run
  | .processExportJob jobId => (.processed <$> ExportJobs.processExportJob p jobId : Code Reply).run
  | .cleanupExpiredExports => (.cleaned <$> ExportJobs.cleanupExpiredExports p : Code Reply).run

/-- Time passes, and other calls work on their tables. -/
inductive Outside where
  | wait (ms : Nat)
  | write (user : List User) (wallet : List Wallet) (payment : List Payment)

def Outside.apply : Outside → World → World
  | .wait ms, w => { w with clock := w.clock + ms }
  | .write user wallet payment, w => { w with user, wallet, payment }

abbrev System := Interleaving.System World Query Value (Except String Reply)
def step (p : Platform) : System → Input Task Outside → Option (Answered Query Value) × System :=
  Interleaving.step (exec p) (Task.program p) Outside.apply

end StellarAlerts.ExportJobs
