import StellarAlerts.CsvText
import StellarAlerts.CursorCodec
import StellarAlerts.CursorPages
import StellarAlerts.Loops
import StellarAlerts.UniqueTables

/-!
The export of a wallet's payments. What the formatter writes is the text of the payments
in the order of their ids, a cell that a spreadsheet would compute with an apostrophe in
front (`parse_formatted`). But an empty id at the end of a full batch counts as no
cursor, and the export begins again without end: the export is what it should be if and
only if there is none (`export_exact`).
-/
namespace StellarAlerts.PaymentExport
open CsvText (crlf parse parse_written quoted writeField writeRecord)
open CursorCodec (given)
open CursorPages (PageLimit)
open DateTexts (Date toISOString)
open JsonTexts (quote)
open Loops RowQueries UniqueTables

inductive ExportFormat where
  | csv
  | ndjson
deriving DecidableEq, Repr

def CSV_COLUMNS : List String := ["id","txHash","fromAddress","amount","asset","assetIssuer","memo","receivedAt"]

/-- A row, its amount as `toString` gives it. -/
structure ExportRow where
  id : String
  txHash : String
  fromAddress : String
  amount : String
  asset : String
  assetIssuer : Option String
  memo : Option String
  receivedAt : Date
deriving DecidableEq

structure Payment extends ExportRow where
  walletId : String
deriving DecidableEq

abbrev Payments := Table Payment fun a b => a.id == b.id

/-- A value by what is asked of it: nothing, a date, or something that `String` makes a text of. -/
inductive CsvValue where
  | nullish
  | date (value : Date)
  | other (text : String)

/-- `/^[=+\-@\t\r]/`. -/
def startsFormula (str : List Char) : Bool := str.head?.any fun c => ['=','+','-','@','\t','\r'].contains c

def escapeText (str : List Char) : List Char :=
  let str := if startsFormula str then '\'' :: str else str
  if str.any fun c => ['"',',','\r','\n'].contains c then
    ['"'] ++ (str.flatMap fun c => if c = '"' then ['"','"'] else [c]) ++ ['"']
  else str

def escapeCsvField : CsvValue → List Char
  | .nullish => []
  | .date value => escapeText (toISOString value).toList
  | .other text => escapeText text.toList

def toRecord (row : ExportRow) : List (String × Option String) :=
  [("id",some row.id),("txHash",some row.txHash),("fromAddress",some row.fromAddress),("amount",some row.amount),
    ("asset",some row.asset),("assetIssuer",row.assetIssuer),("memo",row.memo),("receivedAt",some (toISOString row.receivedAt))]

/-- `record[c]`. -/
def valueAt (record : List (String × Option String)) (c : String) : CsvValue :=
  match record.lookup c with
  | some (some text) => .other text
  | some none | none => .nullish

/-- `JSON.stringify(record)`. -/
def stringifyRecord (record : List (String × Option String)) : List Char :=
  '{' :: [','].intercalate (record.map fun (name,value) => quote name ++ ':' :: value.elim "null".toList quote) ++ ['}']

def headerLine : List Char := [','].intercalate (CSV_COLUMNS.map String.toList) ++ ['\r','\n']

def transform (format : ExportFormat) (first : Bool) (row : ExportRow) : List Char :=
  let record := toRecord row
  match format with
  | .csv => (if first then headerLine else []) ++
      ([','].intercalate (CSV_COLUMNS.map fun c => escapeCsvField (valueAt record c)) ++ ['\r','\n'])
  | .ndjson => stringifyRecord record ++ ['\n']

def flush (format : ExportFormat) (first : Bool) : List Char := if first && format == .csv then headerLine else []

/-- What the formatter puts out for rows that end. -/
def formatted (format : ExportFormat) (first : Bool) : List ExportRow → List Char
  | [] => flush format first
  | row :: rows => transform format first row ++ formatted format false rows

section Batches
variable (db : Database) (payments : Payments) (walletId : String) (batchSize : Nat)

/-- The payments of the wallet in the order of their ids. -/
def paymentsOf : List Payment :=
  ordered (fun row => db.collationKey row.id) (payments.rows.filter fun row => row.walletId = walletId)

/-- `findMany`, with a cursor from its row on and without that row. -/
def findBatch (cursor : Option String) : List Payment :=
  match cursor with
  | none => (paymentsOf db payments walletId).take batchSize
  | some id =>
    if payments.rows.any fun row => row.id = id then
      (((paymentsOf db payments walletId).filter fun row => db.collationKey id ≤ db.collationKey row.id).drop 1).take batchSize
    else []

/-- One turn of the generator's loop: the rows that it yields, and the next cursor. -/
def batchTurn (cursor : Option String) : List Payment × (Option String ⊕ Except String Unit) :=
  let batch := findBatch db payments walletId batchSize (given cursor)
  (batch,if batch.length < batchSize then .inr (.ok ())
    else match batch.getLast? with
      | some last => .inl (some last.id)
      | none => .inr (.error "Cannot read properties of undefined (reading 'id')"))

def iteratePayments (turns : Nat) : List Payment × Option (Except String Unit) :=
  loop (batchTurn db payments walletId batchSize) turns none

/-- The text of an export that has ended within so many batches. -/
def exported (format : ExportFormat) (turns : Nat) : Option (List Char) :=
  match iteratePayments db payments walletId batchSize turns with
  | (rows,some (.ok ())) => some (formatted format true (rows.map Payment.toExportRow))
  | _ => none

end Batches

section Cells

/-- The cell of a text: nothing for `null`, and an apostrophe before a formula. -/
def cell (value : Option String) : List Char :=
  match value with
  | none => []
  | some text => if startsFormula text.toList then '\'' :: text.toList else text.toList

def cells (row : ExportRow) : List (List Char) :=
  [cell (some row.id),cell (some row.txHash),cell (some row.fromAddress),cell (some row.amount),cell (some row.asset),
    cell row.assetIssuer,cell row.memo,cell (some (toISOString row.receivedAt))]

theorem cell_no_formula (value : Option String) : startsFormula (cell value) = false := by
  cases value with
  | none => rfl
  | some text =>
    by_cases formula : startsFormula text.toList = true
    · simp only [cell,if_pos formula]
      rfl
    · simp only [cell,if_neg formula]
      simpa using formula

theorem escapeText_eq (text : String) : escapeText text.toList = writeField (cell (some text)) := by
  have special : (fun c : Char => ['"',',','\r','\n'].contains c) = CsvText.isSpecial := by
    funext c
    rw [Bool.eq_iff_iff]
    simp [CsvText.isSpecial,or_assoc]
  simp only [escapeText,cell,special,writeField,quoted,CsvText.doubled]
  rfl

theorem escapeCsvField_eq (value : Option String) :
    escapeCsvField (value.elim .nullish .other) = writeField (cell value) := by
  cases value with
  | none => rfl
  | some text => exact escapeText_eq text

theorem valueAt_of_lookup {record : List (String × Option String)} {c : String} {value : Option String}
    (found : record.lookup c = some value) : valueAt record c = value.elim .nullish .other := by
  rw [valueAt,found]
  cases value with
  | none => rfl
  | some text => rfl

theorem lookup_of_mem {record : List (String × Option String)} (distinct : (record.map Prod.fst).Nodup) {c : String}
    {value : Option String} (listed : (c,value) ∈ record) : record.lookup c = some value := by
  induction record with
  | nil => cases listed
  | cons entry record ih =>
    obtain ⟨name,own⟩ := entry
    obtain ⟨fresh,distinct⟩ := List.nodup_cons.mp distinct
    rcases List.mem_cons.mp listed with same | later
    · obtain ⟨rfl,rfl⟩ := Prod.mk.inj same
      exact List.lookup_cons_self
    · have other : (c == name) = false := by
        refine beq_eq_false_iff_ne.mpr fun same => fresh ?_
        subst same
        exact List.mem_map.mpr ⟨(c,value),later,rfl⟩
      rw [List.lookup_cons,other]
      exact ih distinct later

theorem columns_written (row : ExportRow) :
    (CSV_COLUMNS.map fun c => escapeCsvField (valueAt (toRecord row) c)) = (cells row).map writeField := by
  have names : CSV_COLUMNS = (toRecord row).map Prod.fst := rfl
  have distinct : CSV_COLUMNS.Nodup := by decide
  have values : (cells row).map writeField = (toRecord row).map fun entry => writeField (cell entry.2) := rfl
  rw [values,names,List.map_map]
  refine List.map_congr_left fun entry listed => ?_
  rw [Function.comp_apply,valueAt_of_lookup (lookup_of_mem (names ▸ distinct) listed),escapeCsvField_eq]

theorem header_written : headerLine = writeRecord (CSV_COLUMNS.map String.toList) := by decide

theorem line_written (row : ExportRow) : transform .csv false row = writeRecord (cells row) := by
  rw [transform,columns_written]
  rfl

theorem formatted_rows (rows : List ExportRow) : formatted .csv false rows = (rows.map cells).flatMap writeRecord := by
  induction rows with
  | nil => rfl
  | cons row rows ih => rw [formatted,line_written,ih,List.map_cons,List.flatMap_cons]

theorem formatted_eq (rows : List ExportRow) :
    formatted .csv true rows = (CSV_COLUMNS.map String.toList :: rows.map cells).flatMap writeRecord := by
  rw [List.flatMap_cons,← header_written,← formatted_rows]
  cases rows with
  | nil => simp [formatted,flush]
  | cons row rows =>
    have both : transform .csv true row = headerLine ++ transform .csv false row := by simp [transform]
    rw [formatted,both,List.append_assoc]
    rfl

theorem parse_formatted (rows : List ExportRow) :
    parse (formatted .csv true rows) = some (CSV_COLUMNS.map String.toList :: rows.map cells) := by
  rw [formatted_eq]
  refine parse_written fun record listed => ?_
  rcases List.mem_cons.mp listed with rfl | listed
  · decide
  · obtain ⟨row,-,rfl⟩ := List.mem_map.mp listed
    simp [cells]

end Cells

section Run
variable {db : Database} {payments : Payments} {walletId : String} {batchSize : Nat}

theorem paymentsOf_perm : (paymentsOf db payments walletId).Perm (payments.rows.filter fun row => row.walletId = walletId) :=
  ordered_perm _

theorem paymentsOf_sorted :
    (paymentsOf db payments walletId).Pairwise fun a b => db.collationKey a.id < db.collationKey b.id :=
  ordered_apart (apart_of_unique (payments.unique.filter _) fun _ _ same => db.distinct same)

variable {front : List Payment}

theorem findBatch_behind {rest : List Payment} (whole : paymentsOf db payments walletId = front ++ rest) :
    findBatch db payments walletId batchSize (front.getLast?.map fun row => row.id) = rest.take batchSize := by
  rcases List.eq_nil_or_concat' front with rfl | ⟨before,row,rfl⟩
  · rw [List.getLast?_nil,Option.map_none,findBatch,whole,List.nil_append]
  · rw [List.append_assoc,List.singleton_append] at whole
    have listed : row ∈ payments.rows := by
      have inOrder : row ∈ paymentsOf db payments walletId := by simp [whole]
      exact (List.mem_filter.mp (paymentsOf_perm.mem_iff.mp inOrder)).1
    have there : (payments.rows.any fun other => other.id = row.id) = true :=
      List.any_eq_true.mpr ⟨row,listed,by simp⟩
    have sorted : (paymentsOf db payments walletId).Pairwise fun a b => db.collationKey a.id < db.collationKey b.id :=
      paymentsOf_sorted
    rw [whole] at sorted
    have behind := filter_from sorted
    rw [List.getLast?_concat,Option.map_some,findBatch,if_pos there,whole,behind]
    rfl

theorem batchTurn_behind (positive : 0 < batchSize) {rest : List Payment} {cursor : Option String}
    (whole : paymentsOf db payments walletId = front ++ rest) (asked : given cursor = front.getLast?.map fun row => row.id) :
    batchTurn db payments walletId batchSize cursor =
      (rest.take batchSize,if rest.length < batchSize then .inr (.ok ())
        else .inl ((front ++ rest.take batchSize).getLast?.map fun row => row.id)) := by
  rw [batchTurn,asked,findBatch_behind whole]
  by_cases short : rest.length < batchSize
  · have taken : (rest.take batchSize).length < batchSize := by
      rw [List.length_take]
      omega
    simp only [if_pos short,if_pos taken]
  · have taken : ¬ (rest.take batchSize).length < batchSize := by
      rw [List.length_take]
      omega
    simp only [if_neg short,if_neg taken]
    rcases List.eq_nil_or_concat' (rest.take batchSize) with none_ | ⟨first,last,is⟩
    · rw [none_] at taken
      exact absurd positive taken
    · rw [is,List.getLast?_concat,← List.append_assoc,List.getLast?_concat]
      rfl

def NoEmptyEnd (db : Database) (payments : Payments) (walletId : String) (batchSize : Nat) : Prop :=
  ∀ front row rest, paymentsOf db payments walletId = front ++ row :: rest → batchSize ∣ front.length + 1 → row.id ≠ ""

theorem given_end (noEmpty : NoEmptyEnd db payments walletId batchSize) {rest : List Payment}
    (whole : paymentsOf db payments walletId = front ++ rest) (full : batchSize ∣ front.length) :
    given (front.getLast?.map fun row => row.id) = front.getLast?.map fun row => row.id := by
  rcases List.eq_nil_or_concat' front with rfl | ⟨before,row,rfl⟩
  · rfl
  · rw [List.append_assoc,List.singleton_append] at whole
    rw [List.length_append,List.length_singleton] at full
    have some_ := noEmpty before row rest whole full
    simp [given,some_]

theorem given_or {text : Option String} (some_ : given text ≠ none) : given text = text := by
  cases text with
  | none => rfl
  | some word =>
    by_cases empty : word = ""
    · exact absurd (by simp [given,empty]) some_
    · simp [given,empty]

theorem loop_behind (positive : 0 < batchSize) (noEmpty : NoEmptyEnd db payments walletId batchSize) {turns : Nat}
    {rest : List Payment} (whole : paymentsOf db payments walletId = front ++ rest) (full : batchSize ∣ front.length)
    (enough : rest.length < turns) :
    loop (batchTurn db payments walletId batchSize) turns (front.getLast?.map fun row => row.id) = (rest,some (.ok ())) := by
  induction turns generalizing front rest with
  | zero => omega
  | succ turns ih =>
    have turn := batchTurn_behind positive whole (given_end noEmpty whole full)
    by_cases short : rest.length < batchSize
    · rw [if_pos short] at turn
      rw [loop_done (congrArg Prod.snd turn),turn,List.take_of_length_le short.le]
    · rw [if_neg short] at turn
      have length : (rest.take batchSize).length = batchSize := by
        rw [List.length_take]
        omega
      have whole' : paymentsOf db payments walletId = (front ++ rest.take batchSize) ++ rest.drop batchSize := by
        rw [List.append_assoc,List.take_append_drop,whole]
      have full' : batchSize ∣ (front ++ rest.take batchSize).length := by
        rw [List.length_append,length]
        exact Nat.dvd_add full (Nat.dvd_refl batchSize)
      have fewer : (rest.drop batchSize).length < turns := by
        rw [List.length_drop]
        omega
      rw [loop_again (congrArg Prod.snd turn),ih whole' full' fewer,turn,List.take_append_drop]

theorem exported_all (positive : 0 < batchSize) (noEmpty : NoEmptyEnd db payments walletId batchSize) (format : ExportFormat) :
    ∃ turns, exported db payments walletId batchSize format turns =
      some (formatted format true ((paymentsOf db payments walletId).map Payment.toExportRow)) := by
  have start : paymentsOf db payments walletId = [] ++ paymentsOf db payments walletId := rfl
  have ran := loop_behind positive noEmpty start (Nat.dvd_zero batchSize) (Nat.lt_succ_self _)
  refine ⟨(paymentsOf db payments walletId).length + 1,?_⟩
  rw [List.getLast?_nil,Option.map_none] at ran
  rw [exported,iteratePayments,ran]

/-- The cursors before an empty id comes back to the beginning. -/
def Circling (db : Database) (payments : Payments) (walletId : String) (batchSize bound : Nat) (cursor : Option String) : Prop :=
  ∃ front rest, paymentsOf db payments walletId = front ++ rest ∧ cursor = (front.getLast?.map fun row => row.id) ∧
    batchSize ∣ front.length ∧ front.length ≤ bound

theorem circling_again (positive : 0 < batchSize) {before behind : List Payment} {row : Payment}
    (whole : paymentsOf db payments walletId = before ++ row :: behind) (full : batchSize ∣ before.length + 1)
    (empty : row.id = "") {cursor : Option String}
    (circling : Circling db payments walletId batchSize (before.length + 1) cursor) :
    ∃ next, (batchTurn db payments walletId batchSize cursor).2 = .inl next ∧
      Circling db payments walletId batchSize (before.length + 1) next := by
  have total : (paymentsOf db payments walletId).length = before.length + 1 + behind.length := by
    rw [whole,List.length_append,List.length_cons]
    omega
  -- a turn behind rows that end before the empty id
  have turn (front rest : List Payment) (parts : paymentsOf db payments walletId = front ++ rest)
      (asked : given cursor = front.getLast?.map fun row => row.id) (batches : batchSize ∣ front.length)
      (earlier : front.length < before.length + 1) :
      ∃ next, (batchTurn db payments walletId batchSize cursor).2 = .inl next ∧
        Circling db payments walletId batchSize (before.length + 1) next := by
    have room : front.length + batchSize ≤ before.length + 1 := by
      have rest_ := Nat.le_of_dvd (by omega) (Nat.dvd_sub full batches)
      omega
    have lengths : front.length + rest.length = before.length + 1 + behind.length := by
      rw [← total,parts,List.length_append]
    have long : ¬ rest.length < batchSize := by omega
    have taken : (rest.take batchSize).length = batchSize := by
      rw [List.length_take]
      omega
    refine ⟨_,?_,front ++ rest.take batchSize,rest.drop batchSize,?_,rfl,?_,?_⟩
    · rw [batchTurn_behind positive parts asked,if_neg long]
    · rw [List.append_assoc,List.take_append_drop,parts]
    · rw [List.length_append,taken]
      exact Nat.dvd_add batches (Nat.dvd_refl batchSize)
    · rw [List.length_append,taken]
      exact room
  by_cases restarts : given cursor = none
  · exact turn [] (paymentsOf db payments walletId) rfl restarts (Nat.dvd_zero batchSize) (by simp)
  · obtain ⟨front,rest,parts,rfl,batches,bounded⟩ := circling
    have asked := given_or restarts
    refine turn front rest parts asked batches (lt_of_le_of_ne bounded fun atEnd => restarts ?_)
    have same : front ++ rest = (before ++ [row]) ++ behind := by
      rw [← parts,whole,List.append_assoc,List.singleton_append]
    have front_is : front = before ++ [row] := List.append_inj_left same (by simp [atEnd])
    rw [front_is,List.getLast?_concat,Option.map_some,empty]
    rfl

theorem exported_never (positive : 0 < batchSize) {before behind : List Payment} {row : Payment}
    (whole : paymentsOf db payments walletId = before ++ row :: behind) (full : batchSize ∣ before.length + 1)
    (empty : row.id = "") (format : ExportFormat) (turns : Nat) :
    exported db payments walletId batchSize format turns = none := by
  have start : Circling db payments walletId batchSize (before.length + 1) none :=
    ⟨[],paymentsOf db payments walletId,rfl,rfl,Nat.dvd_zero batchSize,Nat.zero_le _⟩
  have endless := loop_endless (fun _ circling => circling_again positive whole full empty circling) turns start
  rw [exported,iteratePayments]
  split
  · next ended =>
    rw [ended] at endless
    cases endless
  · rfl

end Run

section Exact
variable (db : Database) (payments : Payments) (walletId : String) (batchSize : PageLimit)

/-- The export ends with a text that has the header and one record for each payment of the wallet
    in the order of their ids, each cell the text of its value, and none a formula. -/
def Exact : Prop :=
  ∃ rows : List Payment, rows.Perm (payments.rows.filter fun row => row.walletId = walletId) ∧
    rows.Pairwise (fun a b => db.collationKey a.id < db.collationKey b.id) ∧
    ∃ turns text, exported db payments walletId batchSize .csv turns = some text ∧
      ∃ records, parse text = some records ∧
        records = CSV_COLUMNS.map String.toList :: rows.map (fun row => cells row.toExportRow) ∧
        ∀ record ∈ records, record.length = CSV_COLUMNS.length ∧ ∀ field ∈ record, startsFormula field = false

theorem export_exact : Exact db payments walletId batchSize ↔ NoEmptyEnd db payments walletId batchSize := by
  constructor
  · rintro ⟨-,-,-,turns,text,ended,-⟩ before row behind whole full empty
    rw [exported_never batchSize.property whole full empty] at ended
    cases ended
  · intro noEmpty
    obtain ⟨turns,ended⟩ := exported_all batchSize.property noEmpty .csv
    refine ⟨paymentsOf db payments walletId,paymentsOf_perm,paymentsOf_sorted,turns,_,ended,_,parse_formatted _,by simp,?_⟩
    intro record listed
    rcases List.mem_cons.mp listed with rfl | listed
    · decide
    · obtain ⟨row,-,rfl⟩ := List.mem_map.mp listed
      refine ⟨rfl,?_⟩
      simp [cells,cell_no_formula]

end Exact

def unnamed : Payment :=
  { id := "", txHash := "t", fromAddress := "G", amount := "1", asset := "XLM", assetIssuer := none, memo := none
    receivedAt := ⟨0,DateTexts.zero_inRange⟩, walletId := "w" }

def onePayment : Payments := ⟨[unnamed],by decide⟩

/-- In batches of one, a payment with the empty id is exported again and again. -/
theorem export_repeats : ¬ Exact byCodePoint onePayment "w" ⟨1,Nat.one_pos⟩ := by
  rintro ⟨-,-,-,turns,text,ended,-⟩
  have whole : paymentsOf byCodePoint onePayment "w" = [] ++ unnamed :: [] := by decide
  rw [exported_never Nat.one_pos whole (Nat.dvd_refl 1) rfl] at ended
  cases ended

end StellarAlerts.PaymentExport
