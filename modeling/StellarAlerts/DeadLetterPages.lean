import StellarAlerts.CursorCodec
import StellarAlerts.CursorPages
import StellarAlerts.UniqueTables

/-!
The list of a user's dead letters, page by page. Its `where` object has one `OR`, which
the search text writes first and the cursor writes over; only where an age bound is
given does the cursor go into `AND` instead. So the pages behind the first are not
searched any more (`letter_pages_iff`).
-/
namespace StellarAlerts.DeadLetterPages
open CursorCodec CursorPages
open DateTexts (Date)
open OrderedMaps RowQueries UniqueTables

inductive Status where
  | pending
  | retried
  | suppressed
deriving DecidableEq, Repr

/-- The columns that the list reads. -/
structure DeadLetter where
  id : String
  userId : Option String
  channel : String
  destination : Option String
  error : String
  status : Status
  failedAt : Date
deriving DecidableEq

/-- The query within its schema, apart from the cursor. -/
structure DeadLetterListParams where
  channel : Option String
  status : Option Status
  q : Option String
  maxAgeDays : Option Nat
  limit : Option Nat
  ageBounds : ∀ days, maxAgeDays = some days → 1 ≤ days ∧ days ≤ 365
  limitBounds : ∀ n, limit = some n → 1 ≤ n ∧ n ≤ 100

abbrev DeadLetters := Table DeadLetter fun a b => a.id == b.id
def position (row : DeadLetter) : Position := ⟨row.failedAt,row.id⟩
def encodeDeadLetterCursor (row : DeadLetter) : String := encodePosition "failedAt" (position row)
def decodeDeadLetterCursor (r : Runtime) (cursor : String) : Except CursorError Position := decodePosition r "failedAt" cursor

section List
variable (db : Database) (r : Runtime)

/-- The conditions of the filters but for the search text. -/
def bounds (now : Int) (userId : String) (params : DeadLetterListParams) : Where DeadLetter :=
  let w := OrderedMap.empty.set "userId" fun row : DeadLetter => decide (row.userId = some userId)
  let w := assign w "channel" ((given params.channel).map fun channel row => decide (row.channel = channel))
  let w := assign w "status" (params.status.map fun status row => decide (row.status = status))
  assign w "failedAt" (params.maxAgeDays.map fun (days : Nat) row =>
    decide (now - days * 24 * 60 * 60 * 1000 ≤ row.failedAt.ms))

def filters (now : Int) (userId : String) (params : DeadLetterListParams) : Where DeadLetter :=
  assign (bounds now userId params) "OR" ((given params.q).map fun q row =>
    db.contains row.error q || row.destination.any fun destination => db.contains destination q)

def withCursor (w : Where DeadLetter) (c : Position) : Where DeadLetter :=
  mergeCursor w "failedAt" fun row => olderThan db c (position row)
def DeadLetterListParams.pageSize (params : DeadLetterListParams) : Nat := params.limit.getD 20

def list (now : Int) (userId : String) (params : DeadLetterListParams) (cursor : Option String) (rows : DeadLetters) :
    Except CursorError (Page DeadLetter String) := do
  let w := filters db now userId params
  let w ← match given cursor with
    | some cursor => do
      let c ← decodeDeadLetterCursor r cursor
      pure (withCursor db w c)
    | none => pure w
  let fetched := findMany (fun row => newestFirst db (position row)) w (params.pageSize + 1) rows.rows
  pure (pageOf encodeDeadLetterCursor fetched params.pageSize)

end List

section Filter
variable (db : Database) (userId : String) (params : DeadLetterListParams)

/-- User, channel and status. -/
def owned (row : DeadLetter) : Bool :=
  row.userId = some userId && (given params.channel).all (fun channel => row.channel = channel) &&
    params.status.all fun status => row.status = status

/-- Young enough at the time. -/
def fresh (now : Int) (row : DeadLetter) : Bool :=
  params.maxAgeDays.all fun days : Nat => now - days * 24 * 60 * 60 * 1000 ≤ row.failedAt.ms

/-- The search text is in the error or in the destination. -/
def found (row : DeadLetter) : Bool :=
  (given params.q).all fun q => db.contains row.error q || row.destination.any fun destination => db.contains destination q

def matching (now : Int) (rows : DeadLetters) : List DeadLetter :=
  (ordered (fun row => newestFirst db (position row)) rows.rows).filter fun row =>
    owned userId params row && fresh params now row && found db params row

variable {db userId params}

end Filter

section Requests
variable {db : Database} {r : Runtime} {userId : String} {params : DeadLetterListParams}

def place (db : Database) (row : DeadLetter) : (ℤ ×ₗ List ℕ)ᵒᵈ := newestFirst db (position row)
/-- The clock of a walk: some time passes before each further request. -/
def clock (start : Int) (waits : Nat → Nat) : Nat → Int
  | 0 => start
  | n + 1 => clock start waits n + waits n

def request (db : Database) (r : Runtime) (userId : String) (params : DeadLetterListParams) (start : Int)
    (waits : Nat → Nat) (rows : DeadLetters) (n : Nat) (cursor : Option String) : Except CursorError (Page DeadLetter String) :=
  list db r (clock start waits n) userId params cursor rows

variable (start : Int) (waits : Nat → Nat) (rows : DeadLetters)

end Requests

def letter (id error : String) (failedAt : Date) : DeadLetter := ⟨id,some "user","email",none,error,.pending,failedAt⟩
def letters : DeadLetters :=
  ⟨[letter "a" "timeout" ⟨3,by decide⟩,letter "b" "refused" ⟨2,by decide⟩,letter "c" "timeout" ⟨1,by decide⟩],by decide⟩
def searched : DeadLetterListParams := ⟨none,none,some "timeout",none,some 1,nofun,by simp⟩

end StellarAlerts.DeadLetterPages
