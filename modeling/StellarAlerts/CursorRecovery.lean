import Mathlib.Algebra.Group.Int.Defs
import StellarAlerts.IntegerText

/-!
The ingestion cursor of a wallet: the paging token of the last record taken in, with
health fields for operators. On numeric tokens the watcher's comparison is the order of
their values (`isPagingTokenAtLeast_iff`), and a gap lies strictly ahead of the cursor
(`token_lt_of_gap`).
-/
namespace StellarAlerts.CursorRecovery
open IntegerText

/-- Most recent records to process again when a gap is detected. -/
def BOUNDED_BACKFILL_LIMIT : Nat := 200

def DEFAULT_MAX_LEDGER_JUMP : Int := 5

/-- The ledger of a paging token; none for a text that is no positive integer.
    `Number(value >> 32n)` is exact here, as it is for every 64-bit token. -/
def ledgerSeqFromPagingToken (pagingToken : Option String) : Option Int :=
  match pagingToken with
  | none => none
  | some token =>
    if token = "" then none
    else
      match BigInt token with
      | none => none
      | some value => if value ≤ 0 then none else some (value / 2 ^ 32)

structure GapDetectionResult where
  hasGap : Bool
  ledgerDelta : Int
  deriving DecidableEq, Repr

def noGap : GapDetectionResult := ⟨false,0⟩

def detectLedgerGap (previousPagingToken nextPagingToken : Option String) (maxLedgerJump : Int) : GapDetectionResult :=
  match ledgerSeqFromPagingToken previousPagingToken, ledgerSeqFromPagingToken nextPagingToken with
  | some previousLedger, some nextLedger =>
    ⟨decide (maxLedgerJump < nextLedger - previousLedger),nextLedger - previousLedger⟩
  | _, _ => noGap

/-- The comparison of the watcher: by value where both texts are digits, else only a token equal to the current one counts. -/
def isPagingTokenAtLeast (candidate current : String) : Bool :=
  if !isDigits candidate || !isDigits current then candidate == current
  else
    match BigInt candidate, BigInt current with
    | some a, some b => decide (b ≤ a)
    | _, _ => false

inductive CursorStatus where
  | active
  | gap_detected
  deriving DecidableEq, Repr

variable {Date : Type}

/-- A row of the cursor table. -/
structure IngestionCursor (Date : Type) where
  pagingToken : String
  status : CursorStatus
  consecutiveFailures : Nat
  lastError : Option String
  lastSuccessAt : Option Date
  gapDetectedAt : Option Date
  lastGapLedgerDelta : Option Int

/-- The row that `create` makes: the token and the defaults of the schema. -/
def IngestionCursor.create (pagingToken : String) : IngestionCursor Date :=
  ⟨pagingToken,.active,0,none,none,none,none⟩

/-- The health fields that an update sets; none leaves a field as it is. -/
structure IngestionCursorHealthUpdate (Date : Type) where
  status : Option CursorStatus := none
  consecutiveFailures : Option Nat := none
  lastError : Option (Option String) := none
  lastSuccessAt : Option Date := none
  gapDetectedAt : Option Date := none
  lastGapLedgerDelta : Option Int := none

def buildCursorSuccessUpdate (now : Date) : IngestionCursorHealthUpdate Date :=
  { status := some .active, consecutiveFailures := some 0, lastError := some none, lastSuccessAt := some now }
def buildCursorOutageUpdate (error : String) (previousFailures : Nat) : IngestionCursorHealthUpdate Date :=
  { consecutiveFailures := some (previousFailures + 1), lastError := some (some error) }
def buildCursorGapUpdate (ledgerDelta : Int) (now : Date) : IngestionCursorHealthUpdate Date :=
  { status := some .gap_detected, gapDetectedAt := some now, lastGapLedgerDelta := some ledgerDelta }
def buildCursorGapClearedUpdate : IngestionCursorHealthUpdate Date := { status := some .active }

def IngestionCursor.withHealth (cursor : IngestionCursor Date) (update : IngestionCursorHealthUpdate Date) :
    IngestionCursor Date :=
  { cursor with
    status := update.status.getD cursor.status
    consecutiveFailures := update.consecutiveFailures.getD cursor.consecutiveFailures
    lastError := update.lastError.getD cursor.lastError
    lastSuccessAt := update.lastSuccessAt.or cursor.lastSuccessAt
    gapDetectedAt := update.gapDetectedAt.or cursor.gapDetectedAt
    lastGapLedgerDelta := update.lastGapLedgerDelta.or cursor.lastGapLedgerDelta }

@[simp] theorem withHealth_pagingToken (cursor : IngestionCursor Date) (update : IngestionCursorHealthUpdate Date) :
    (cursor.withHealth update).pagingToken = cursor.pagingToken := rfl

/-- On numeric tokens the comparison is the order of their values. -/
theorem isPagingTokenAtLeast_iff {candidate current : String} (digits : isDigits candidate = true)
    (digits' : isDigits current = true) :
    isPagingTokenAtLeast candidate current = true ↔ decimal current ≤ decimal candidate := by
  simp [isPagingTokenAtLeast,digits,digits',BigInt_digits]

theorem isPagingTokenAtLeast_of_text {candidate current : String}
    (text : isDigits candidate = false ∨ isDigits current = false) :
    isPagingTokenAtLeast candidate current = true ↔ candidate = current := by
  rcases text with text | text <;> simp [isPagingTokenAtLeast,text]

theorem isPagingTokenAtLeast_trans {a b c : String} (first : isPagingTokenAtLeast a b = true)
    (second : isPagingTokenAtLeast b c = true) : isPagingTokenAtLeast a c = true := by
  cases digits : isDigits b with
  | false =>
    obtain rfl := (isPagingTokenAtLeast_of_text (Or.inr digits)).mp first
    exact second
  | true =>
    cases digitsA : isDigits a with
    | false =>
      obtain rfl := (isPagingTokenAtLeast_of_text (Or.inl digitsA)).mp first
      exact second
    | true =>
      cases digitsC : isDigits c with
      | false =>
        obtain rfl := (isPagingTokenAtLeast_of_text (Or.inr digitsC)).mp second
        exact first
      | true =>
        rw [isPagingTokenAtLeast_iff digitsA digits] at first
        rw [isPagingTokenAtLeast_iff digits digitsC] at second
        rw [isPagingTokenAtLeast_iff digitsA digitsC]
        omega

theorem digits_ne_empty {token : String} (digits : isDigits token = true) : token ≠ "" := by
  rintro rfl
  exact absurd digits (by decide)

theorem ledger_digits {token : String} (digits : isDigits token = true) :
    ledgerSeqFromPagingToken (some token) =
      if decimal token = 0 then none else some ((decimal token : Int) / 2 ^ 32) := by
  simp [ledgerSeqFromPagingToken,digits_ne_empty digits,BigInt_digits digits]

theorem token_lt_of_gap {previous next : String} (digits : isDigits previous = true) (digits' : isDigits next = true)
    {maxLedgerJump : Int} (nonneg : 0 ≤ maxLedgerJump)
    (gap : (detectLedgerGap (some previous) (some next) maxLedgerJump).hasGap = true) :
    decimal previous < decimal next := by
  by_contra behind
  have order : (decimal next : Int) / 2 ^ 32 ≤ (decimal previous : Int) / 2 ^ 32 :=
    Int.ediv_le_ediv (by decide) (by omega)
  rw [detectLedgerGap,ledger_digits digits,ledger_digits digits'] at gap
  by_cases zero : decimal previous = 0 <;> by_cases zero' : decimal next = 0 <;>
    simp only [zero,zero',↓reduceIte,noGap,decide_eq_true_eq,reduceCtorEq] at gap
  omega

theorem no_gap_of_none (next : Option String) (maxLedgerJump : Int) :
    detectLedgerGap none next maxLedgerJump = noGap := by
  simp [detectLedgerGap,ledgerSeqFromPagingToken]

end StellarAlerts.CursorRecovery
