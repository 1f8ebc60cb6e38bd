import Mathlib.Data.List.Forall2

/-!
Comma-separated values by the grammar of RFC 4180: fields between commas, records ended
by line breaks of two characters, and quotes around what contains one of these. A reader
reads every document of the grammar as the records that it is written for
(`parse_of_document`).
-/
namespace StellarAlerts.CsvText

/-- Characters that stand in quotes only. -/
def isSpecial (c : Char) : Bool := c == '"' || c == ',' || c == '\r' || c == '\n'

/-- Inside quotes a quote is written twice. -/
def doubled (field : List Char) : List Char := field.flatMap fun c => if c = '"' then ['"','"'] else [c]

def quoted (field : List Char) : List Char := '"' :: (doubled field ++ ['"'])
def crlf : List Char := ['\r','\n']

/-- A field and its text: as it is, or in quotes. -/
inductive Field : List Char → List Char → Prop where
  | bare {field : List Char} (plain : ∀ c ∈ field, isSpecial c = false) : Field field field
  | escaped (field : List Char) : Field field (quoted field)

/-- One field or more, with commas between them. -/
def Record (fields : List (List Char)) (line : List Char) : Prop :=
  fields ≠ [] ∧ ∃ parts, List.Forall₂ Field fields parts ∧ line = [','].intercalate parts

def ended (lines : List (List Char)) : List Char := lines.flatMap (· ++ crlf)

/-- The last line may be without its line break, if it is not empty. -/
def Document (records : List (List (List Char))) (text : List Char) : Prop :=
  ∃ lines, List.Forall₂ Record records lines ∧
    (text = ended lines ∨ ∃ front last, lines = front ++ [last] ∧ last ≠ [] ∧ text = ended front ++ last)

/-- Where a reader stands: before a field, in a bare one, in quotes, behind a quote
    that ends the field or stands for one, and inside a line break. -/
inductive Mode where
  | start
  | bare
  | quotes
  | closing
  | breaking
deriving DecidableEq, Repr

/-- What was read of the field, the fields of the record before it, and the records before that. -/
structure Reader where
  mode : Mode
  field : List Char
  fields : List (List Char)
  records : List (List (List Char))
deriving DecidableEq, Repr

def Reader.initial : Reader := ⟨.start,[],[],[]⟩

/-- A field ends with a comma or a line break; else the character is the field's. -/
def Reader.separate (s : Reader) (c : Char) (other : Option Reader) : Option Reader :=
  if c = ',' then some ⟨.start,[],s.fields ++ [s.field],s.records⟩
  else if c = '\r' then some { s with mode := .breaking }
  else other

def Reader.next (s : Reader) (c : Char) : Option Reader :=
  match s.mode with
  | .start =>
    if c = '"' then some { s with mode := .quotes }
    else s.separate c (if c = '\n' then none else some { s with mode := .bare, field := s.field ++ [c] })
  | .bare => s.separate c (if isSpecial c then none else some { s with field := s.field ++ [c] })
  | .quotes => if c = '"' then some { s with mode := .closing } else some { s with field := s.field ++ [c] }
  | .closing =>
    if c = '"' then some { s with mode := .quotes, field := s.field ++ [c] }
    else s.separate c none
  | .breaking => if c = '\n' then some ⟨.start,[],[],s.records ++ [s.fields ++ [s.field]]⟩ else none

def Reader.feed (s : Reader) (text : List Char) : Option Reader := text.foldlM Reader.next s

def Reader.finish (s : Reader) : Option (List (List (List Char))) :=
  match s.mode with
  | .start => if s.fields = [] then some s.records else some (s.records ++ [s.fields ++ [s.field]])
  | .bare | .closing => some (s.records ++ [s.fields ++ [s.field]])
  | .quotes | .breaking => none

def parse (text : List Char) : Option (List (List (List Char))) := (Reader.initial.feed text).bind Reader.finish
theorem feed_append (s : Reader) (first second : List Char) :
    s.feed (first ++ second) = (s.feed first).bind fun s => s.feed second := List.foldlM_append

theorem intercalate_snoc (parts : List (List Char)) (part : List Char) :
    [','].intercalate (parts ++ [part]) = parts.flatMap (· ++ [',']) ++ part := by
  induction parts with
  | nil => simp
  | cons first parts ih =>
    rw [List.cons_append,List.intercalate_cons_of_ne_nil (by simp),ih,List.flatMap_cons]
    simp only [List.append_assoc]

theorem forall₂_snoc {α β : Type*} {R : α → β → Prop} {whole : List α} {front : List β} {last : β}
    (related : List.Forall₂ R whole (front ++ [last])) :
    ∃ front' last', whole = front' ++ [last'] ∧ List.Forall₂ R front' front ∧ R last' last := by
  induction front generalizing whole with
  | nil =>
    cases related with
    | cons one rest =>
      cases rest
      exact ⟨[],_,rfl,.nil,one⟩
  | cons first front ih =>
    cases related with
    | cons one rest =>
      obtain ⟨front',last',rfl,others,atLast⟩ := ih rest
      exact ⟨_,last',rfl,.cons one others,atLast⟩

section
variable {fields : List (List Char)} {records : List (List (List Char))}

def Mode.EndsField (mode : Mode) : Prop := mode = .start ∨ mode = .bare ∨ mode = .closing

variable {mode : Mode}

theorem next_comma (ends : mode.EndsField) (field : List Char) :
    Reader.next ⟨mode,field,fields,records⟩ ',' = some ⟨.start,[],fields ++ [field],records⟩ := by
  rcases ends with rfl | rfl | rfl
  · rfl
  · rfl
  · rfl

theorem next_break (ends : mode.EndsField) (field : List Char) :
    Reader.next ⟨mode,field,fields,records⟩ '\r' = some ⟨.breaking,field,fields,records⟩ := by
  rcases ends with rfl | rfl | rfl
  · rfl
  · rfl
  · rfl

theorem feed_bare (begun : mode = .start ∨ mode = .bare) {word : List Char} (plain : ∀ c ∈ word, isSpecial c = false)
    (field : List Char) :
    Reader.feed ⟨mode,field,fields,records⟩ word = some ⟨if word = [] then mode else .bare,field ++ word,fields,records⟩ := by
  induction word generalizing mode field with
  | nil => simp [Reader.feed]
  | cons c word ih =>
    have plainC := plain c (List.mem_cons_self ..)
    have taken : Reader.next ⟨mode,field,fields,records⟩ c = some ⟨.bare,field ++ [c],fields,records⟩ := by
      have others : ((c ≠ '"' ∧ c ≠ ',') ∧ c ≠ '\r') ∧ c ≠ '\n' := by simpa [isSpecial] using plainC
      rcases begun with rfl | rfl
      · simp [Reader.next,Reader.separate,others]
      · simp [Reader.next,Reader.separate,others,plainC]
    have rest := ih (.inr rfl) (fun c listed => plain c (List.mem_cons_of_mem _ listed)) (field ++ [c])
    rw [Reader.feed,List.foldlM_cons,taken]
    simpa [Reader.feed] using rest

theorem feed_doubled (word field : List Char) :
    Reader.feed ⟨.quotes,field,fields,records⟩ (doubled word) = some ⟨.quotes,field ++ word,fields,records⟩ := by
  induction word generalizing field with
  | nil => simp [Reader.feed,doubled]
  | cons c word ih =>
    have taken : Reader.feed ⟨.quotes,field,fields,records⟩ (if c = '"' then ['"','"'] else [c]) =
        some ⟨.quotes,field ++ [c],fields,records⟩ := by
      by_cases quote : c = '"'
      · subst quote
        rfl
      · simp [Reader.feed,Reader.next,quote]
    rw [doubled,List.flatMap_cons,feed_append,taken,Option.bind_some]
    exact (ih (field ++ [c])).trans (by simp)

theorem feed_field {field part : List Char} (written : Field field part) :
    ∃ mode : Mode, mode.EndsField ∧ (mode = .start → part = []) ∧
      Reader.feed ⟨.start,[],fields,records⟩ part = some ⟨mode,field,fields,records⟩ := by
  cases written with
  | bare plain =>
    refine ⟨if field = [] then .start else .bare,?_,?_,feed_bare (.inl rfl) plain []⟩
    · by_cases empty : field = []
      · exact .inl (if_pos empty)
      · exact .inr (.inl (if_neg empty))
    · intro stays
      by_contra some_
      rw [if_neg some_] at stays
      cases stays
  | escaped =>
    have opened : Reader.feed ⟨.start,[],fields,records⟩ ['"'] = some ⟨.quotes,[],fields,records⟩ := rfl
    refine ⟨.closing,.inr (.inr rfl),by simp,?_⟩
    rw [quoted,← List.singleton_append,feed_append,opened,Option.bind_some,feed_append,feed_doubled]
    rfl

theorem feed_fields {more parts : List (List Char)} (written : List.Forall₂ Field more parts) :
    Reader.feed ⟨.start,[],fields,records⟩ (parts.flatMap (· ++ [','])) = some ⟨.start,[],fields ++ more,records⟩ := by
  induction written generalizing fields with
  | nil => simp [Reader.feed]
  | @cons field part more parts first _ ih =>
    obtain ⟨mode,ends,-,fed⟩ := feed_field first
    have comma : Reader.feed ⟨mode,field,fields,records⟩ [','] = some ⟨.start,[],fields ++ [field],records⟩ := by
      simp [Reader.feed,next_comma ends]
    rw [List.flatMap_cons,feed_append,feed_append,fed,Option.bind_some,comma,Option.bind_some,ih]
    simp

theorem feed_record {record : List (List Char)} {line : List Char} (written : Record record line) :
    ∃ front last mode, record = front ++ [last] ∧ Mode.EndsField mode ∧ (mode = .start → front = [] → line = []) ∧
      Reader.feed ⟨.start,[],[],records⟩ line = some ⟨mode,last,front,records⟩ := by
  obtain ⟨some_,parts,written,rfl⟩ := written
  rcases List.eq_nil_or_concat' parts with rfl | ⟨before,part,rfl⟩
  · cases written
    exact absurd rfl some_
  · obtain ⟨front,last,rfl,earlier,atLast⟩ := forall₂_snoc written
    obtain ⟨mode,ends,stays,fed⟩ := feed_field atLast
    refine ⟨front,last,mode,rfl,ends,?_,?_⟩
    · intro start none_
      subst none_
      cases earlier
      rw [stays start]
      rfl
    · rw [intercalate_snoc,feed_append,feed_fields earlier,Option.bind_some]
      exact fed

theorem feed_ended {more : List (List (List Char))} {lines : List (List Char)} (written : List.Forall₂ Record more lines) :
    Reader.feed ⟨.start,[],[],records⟩ (ended lines) = some ⟨.start,[],[],records ++ more⟩ := by
  induction written generalizing records with
  | nil => simp [Reader.feed,ended]
  | @cons record line more lines first _ ih =>
    obtain ⟨front,last,mode,rfl,ends,-,fed⟩ := @feed_record records _ _ first
    have broken : Reader.feed ⟨mode,last,front,records⟩ crlf = some ⟨.start,[],[],records ++ [front ++ [last]]⟩ := by
      rw [Reader.feed,crlf,List.foldlM_cons,next_break ends]
      rfl
    have rest := @ih (records ++ [front ++ [last]])
    rw [ended] at rest ⊢
    rw [List.flatMap_cons,feed_append,feed_append,fed,Option.bind_some,broken,Option.bind_some,rest]
    simp

theorem parse_of_document {text : List Char} (document : Document records text) : parse text = some records := by
  obtain ⟨lines,written,rfl | ⟨front,last,rfl,some_,rfl⟩⟩ := document
  · rw [parse,Reader.initial,feed_ended written]
    rfl
  · obtain ⟨earlier,record,rfl,before,atLast⟩ := forall₂_snoc written
    obtain ⟨fields,field,mode,rfl,ends,stays,fed⟩ := @feed_record earlier _ _ atLast
    rw [parse,Reader.initial,feed_append,feed_ended before,Option.bind_some,List.nil_append,fed,Option.bind_some]
    rcases ends with rfl | rfl | rfl
    · exact if_neg fun none_ => some_ (stays rfl none_)
    · rfl
    · rfl

end

def writeField (field : List Char) : List Char := if field.any isSpecial then quoted field else field
def writeRecord (record : List (List Char)) : List Char := [','].intercalate (record.map writeField) ++ crlf

theorem field_written (field : List Char) : Field field (writeField field) := by
  rw [writeField]
  by_cases special : field.any isSpecial = true
  · rw [if_pos special]
    exact .escaped field
  · rw [if_neg special]
    exact .bare (by simpa using special)

theorem parse_written {records : List (List (List Char))} (some_ : ∀ record ∈ records, record ≠ []) :
    parse (records.flatMap writeRecord) = some records := by
  refine parse_of_document ⟨records.map fun record => [','].intercalate (record.map writeField),?_,.inl ?_⟩
  · refine List.forall₂_map_right_iff.mpr (List.forall₂_same.mpr fun record listed => ⟨some_ record listed,_,?_,rfl⟩)
    exact List.forall₂_map_right_iff.mpr (List.forall₂_same.mpr fun field _ => field_written field)
  · rw [ended,List.flatMap_map]
    rfl

example : parse "a,\"x,\"\"y\r\n\"\r\n,b".toList = some [["a".toList,"x,\"y\r\n".toList],[[],"b".toList]] := by decide

end StellarAlerts.CsvText
