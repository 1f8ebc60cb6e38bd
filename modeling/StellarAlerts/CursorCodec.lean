import Mathlib.Data.Prod.Lex
import StellarAlerts.ByteTexts
import StellarAlerts.DateTexts
import StellarAlerts.JsonTexts
import StellarAlerts.RowQueries

/-!
Opaque cursors: base64url over the JSON text of a time and an id. A cursor that was
encoded is decoded to what it was made of (`decode_encode`), and what is accepted has a
time that can be read (`decode_eq_ok_iff`); all other texts are rejected with a
`CursorError`.
-/
namespace StellarAlerts.CursorCodec
open ByteTexts
open DateTexts (Date toISOString)
open JsonTexts Numbers OrderedMaps RowQueries
open Sha256 (utf8)

/-- What the runtime makes of texts that no cursor has: base64url with other letters,
    bytes that are not UTF-8, numbers, and dates that are not written by `toISOString`. -/
structure Runtime where
  base64url : String → List UInt8
  utf8 : List UInt8 → String
  double : String → Number
  date : String → Option Date

/-- A runtime that makes nothing of them. -/
def bareRuntime : Runtime := ⟨fun _ => [],fun _ => "",fun _ => .nan,fun _ => none⟩

structure CursorError where
  message : String
deriving DecidableEq, Repr

def CursorError.invalid : CursorError := ⟨"Invalid or expired cursor"⟩

/-- The time and the id of a row. -/
structure Position where
  time : Date
  id : String
deriving DecidableEq

/-- The time is kept as it is written. -/
structure CursorPayload where
  time : String
  id : String
deriving DecidableEq

def given (text : Option String) : Option String := text.filter fun t => t ≠ ""
def encodePosition (field : String) (p : Position) : String :=
  toBase64url (utf8 (stringify [(field,toISOString p.time),("id",p.id)]))

section Decoding
variable (r : Runtime)

/-- `Date.parse`, and `new Date` of a text. -/
def Runtime.parseDate (text : String) : Option Date := DateTexts.parse r.date text

/-- `Buffer.from(cursor,'base64url').toString('utf8')`, parsed. -/
def Runtime.parseCursor (cursor : String) : Option Json :=
  parse r.double (utf8Text r.utf8 (fromBase64url r.base64url cursor))

/-- The checks of the parsed value. -/
def readPayload (field : String) : Option Json → Except CursorError CursorPayload
  | some (.object members) =>
    match lookup members field, lookup members "id" with
    | some (.string time), some (.string id) =>
      if (r.parseDate time).isSome then .ok ⟨time,id⟩ else .error .invalid
    | _, _ => .error .invalid
  | _ => .error .invalid

def decodePayload (field cursor : String) : Except CursorError CursorPayload := readPayload r field (r.parseCursor cursor)

/-- The decoders that answer with the time itself. -/
def decodePosition (field cursor : String) : Except CursorError Position :=
  match decodePayload r field cursor with
  | .error e => .error e
  | .ok payload =>
    match r.parseDate payload.time with
    | some time => .ok ⟨time,payload.id⟩
    | none => .error .invalid

variable {r}

theorem parseDate_toISOString (time : Date) : r.parseDate (toISOString time) = some time :=
  DateTexts.parse_toISOString r.date time

theorem parseCursor_encode (field : String) (p : Position) :
    r.parseCursor (encodePosition field p) =
      some (.object [(field,.string (toISOString p.time)),("id",.string p.id)]) := by
  have members : [(field,toISOString p.time),("id",p.id)].map (fun m => (m.1,Json.string m.2)) =
      [(field,.string (toISOString p.time)),("id",.string p.id)] := by simp only [List.map_cons,List.map_nil]
  rw [Runtime.parseCursor,encodePosition,fromBase64url_toBase64url,utf8Text_utf8,parse_stringify (List.cons_ne_nil _ _),
    members]

theorem decode_encode {field : String} (other : field ≠ "id") (p : Position) :
    decodePayload r field (encodePosition field p) = .ok ⟨toISOString p.time,p.id⟩ := by
  have time : lookup [(field,Json.string (toISOString p.time)),("id",.string p.id)] field = some (.string (toISOString p.time)) := by
    simp [lookup,other.symm]
  have id : lookup [(field,Json.string (toISOString p.time)),("id",.string p.id)] "id" = some (.string p.id) := by
    simp [lookup]
  have valid : (r.parseDate (toISOString p.time)).isSome := by rw [parseDate_toISOString,Option.isSome_some]
  rw [decodePayload,parseCursor_encode]
  simp only [readPayload,time,id]
  exact if_pos valid

variable {field : String}

variable {payload : CursorPayload}

theorem decodePosition_ok {cursor : String} {time : Date} (decoded : decodePayload r field cursor = .ok payload)
    (read : r.parseDate payload.time = some time) : decodePosition r field cursor = .ok ⟨time,payload.id⟩ := by
  unfold decodePosition
  rw [decoded]
  simp only
  rw [read]

theorem decodePosition_error {cursor : String} {e : CursorError} (rejected : decodePayload r field cursor = .error e) :
    decodePosition r field cursor = .error e := by
  unfold decodePosition
  rw [rejected]

theorem decodePosition_encode (other : field ≠ "id") (p : Position) :
    decodePosition r field (encodePosition field p) = .ok p :=
  decodePosition_ok (decode_encode other p) (parseDate_toISOString p.time)

/-- What is accepted is the text of an object with a time that can be read and an id. -/
theorem decode_eq_ok_iff {cursor : String} :
    decodePayload r field cursor = .ok payload ↔
      ∃ members, r.parseCursor cursor = some (.object members) ∧ lookup members field = some (.string payload.time) ∧
        lookup members "id" = some (.string payload.id) ∧ (r.parseDate payload.time).isSome := by
  rw [decodePayload]
  generalize r.parseCursor cursor = parsed
  constructor
  · intro accepted
    unfold readPayload at accepted
    split at accepted
    · rename_i members
      split at accepted
      · rename_i time id timeIs idIs
        split at accepted
        · rename_i valid
          obtain rfl := Except.ok.inj accepted
          exact ⟨members,rfl,timeIs,idIs,valid⟩
        · cases accepted
      · cases accepted
    · cases accepted
  · rintro ⟨members,rfl,timeIs,idIs,valid⟩
    simp only [readPayload,timeIs,idIs,if_pos valid]

theorem decode_error {cursor : String} {e : CursorError} (rejected : decodePayload r field cursor = .error e) :
    e = .invalid := by
  rw [decodePayload] at rejected
  generalize r.parseCursor cursor = parsed at rejected
  unfold readPayload at rejected
  split at rejected
  · split at rejected
    · split at rejected
      · cases rejected
      · exact (Except.error.inj rejected).symm
    · exact (Except.error.inj rejected).symm
  · exact (Except.error.inj rejected).symm

theorem decode_empty (field : String) : decodePayload r field "" = .error .invalid := by
  have bytes : fromBase64url r.base64url "" = [] := rfl
  have text : utf8Text r.utf8 [] = "" := utf8Text_utf8 r.utf8 ""
  have nothing : parse r.double "" = none := rfl
  rw [decodePayload,Runtime.parseCursor,bytes,text,nothing]
  rfl

theorem encode_ne_empty (other : field ≠ "id") (p : Position) : encodePosition field p ≠ "" := by
  intro empty
  have decoded := @decode_encode bareRuntime field other p
  rw [empty,decode_empty] at decoded
  cases decoded

theorem given_encode {field : String} (other : field ≠ "id") (p : Position) :
    given (some (encodePosition field p)) = some (encodePosition field p) := by
  simp [given,encode_ne_empty other p]

end Decoding

/-- `orderBy: [{ time: 'desc' },{ id: 'desc' }]`. -/
def newestFirst (db : Database) (p : Position) : (ℤ ×ₗ List ℕ)ᵒᵈ := OrderDual.toDual (toLex (p.time.ms,db.collationKey p.id))

/-- `OR: [{ time: { lt: c.time } },{ time: c.time, id: { lt: c.id } }]`. -/
def olderThan (db : Database) (c p : Position) : Bool :=
  p.time.ms < c.time.ms || p.time.ms = c.time.ms && db.collationKey p.id < db.collationKey c.id

theorem olderThan_eq (db : Database) (c p : Position) : olderThan db c p = decide (newestFirst db c < newestFirst db p) := by
  rw [Bool.eq_iff_iff,decide_eq_true_iff,newestFirst,newestFirst,OrderDual.toDual_lt_toDual,Prod.Lex.toLex_lt_toLex]
  simp [olderThan]

theorem olderThan_irrefl (db : Database) (p : Position) : olderThan db p p = false := by
  simp [olderThan]

variable {db : Database} {p q : Position}

theorem olderThan_trans {q' : Position} (first : olderThan db p q = true) (second : olderThan db q q' = true) :
    olderThan db p q' = true := by
  rw [olderThan_eq,decide_eq_true_eq] at first second ⊢
  exact first.trans second

/-- Positions of different ids have different places. -/
theorem newestFirst_inj (same : newestFirst db p = newestFirst db q) : p.id = q.id := by
  have pairs := toLex.injective (OrderDual.toDual.injective same)
  exact db.distinct (congrArg Prod.snd pairs)

section Merge
universe u
variable {Row : Type u} {w : Where Row} {field : String} {earlier : Row → Bool}

/-- The condition of a cursor goes into `AND` beside a range of its field, or it is assigned. -/
def mergeCursor (w : Where Row) (field : String) (earlier : Row → Bool) : Where Row :=
  match w.get field with
  | some range => (w.set "AND" fun row => range row && earlier row).delete field
  | none => w.set "OR" earlier

theorem selects_merge_range {range : Row → Bool} (there : w.get field = some range) (other : "AND" ≠ field)
    (free : w.get "AND" = none) (row : Row) : selects (mergeCursor w field earlier) row = (selects w row && earlier row) := by
  rw [mergeCursor,there]
  simp only
  rw [selects_moved other free,← Bool.and_assoc,← selects_get there]

theorem selects_merge_assigned (unbounded : w.get field = none) (row : Row) :
    selects (mergeCursor w field earlier) row = (selects (w.delete "OR") row && earlier row) := by
  rw [mergeCursor,unbounded]
  simp only
  rw [selects_set]

/-- Where there is no `OR` yet, the cursor is one more condition. -/
theorem selects_merge (other : "AND" ≠ field) (free : w.get "AND" = none) (unsearched : w.get "OR" = none) (row : Row) :
    selects (mergeCursor w field earlier) row = (selects w row && earlier row) := by
  cases there : w.get field with
  | some range => exact selects_merge_range there other free row
  | none => rw [selects_merge_assigned there,delete_of_none unsearched]

end Merge

end StellarAlerts.CursorCodec
