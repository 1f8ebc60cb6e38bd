import StellarAlerts.JsonTexts

/-!
The texts of JSON documents as trees, with their blanks and with literals of any kind. Whatever
the literals are, a tree is read as the value it stands for once each of its literals is read
as its text (`parse_document`).
-/
namespace StellarAlerts.JsonDocuments
open JsonTexts Numbers
universe u

mutual

/-- A value as it is written; numbers and keywords are words. -/
inductive Document (L : Type u) where
  | word (w : List Char)
  | literal (l : L)
  | spaced (before : List Char) (t : Document L) (after : List Char)
  | array (blank : List Char) (items : Items L)
  | object (blank : List Char) (members : Members L)

inductive Items (L : Type u) where
  | nil
  | cons (t : Document L) (rest : Items L)

inductive Members (L : Type u) where
  | nil
  | cons (before : List Char) (key : L) (after : List Char) (t : Document L) (rest : Members L)

end

variable {L : Type u}

section Texts
variable (write : L → List Char)

/-- A literal within its quotes. -/
def quoted (l : L) : List Char := '"' :: (write l ++ ['"'])

mutual

def Document.text : Document L → List Char
  | .word w => w
  | .literal l => quoted write l
  | .spaced before t after => before ++ (t.text ++ after)
  | .array blank items => '[' :: (blank ++ (items.text ++ [']']))
  | .object blank members => '{' :: (blank ++ (members.text ++ ['}']))

def Items.text : Items L → List Char
  | .nil => []
  | .cons t rest => t.text ++ rest.more

/-- The items behind the first. -/
def Items.more : Items L → List Char
  | .nil => []
  | .cons t rest => ',' :: (t.text ++ rest.more)

def Members.text : Members L → List Char
  | .nil => []
  | .cons before key after t rest => before ++ (quoted write key ++ (after ++ ':' :: (t.text ++ rest.more)))

def Members.more : Members L → List Char
  | .nil => []
  | .cons before key after t rest => ',' :: (before ++ (quoted write key ++ (after ++ ':' :: (t.text ++ rest.more))))

end

end Texts

section Values
variable (double : String → Number) (decode : L → String)

mutual

def Document.value : Document L → Json
  | .word w => (readWord double w).getD .null
  | .literal l => .string (decode l)
  | .spaced _ t _ => t.value
  | .array _ items => .array items.values
  | .object _ members => .object members.values

def Items.values : Items L → List Json
  | .nil => []
  | .cons t rest => t.value :: rest.values

def Members.values : Members L → List (String × Json)
  | .nil => []
  | .cons _ key _ t rest => (decode key,t.value) :: rest.values

end

def Blank (blank : List Char) : Prop := ∀ c ∈ blank, c = ' ' ∨ c = '\t' ∨ c = '\n' ∨ c = '\r'

variable (literal : L → Prop)

mutual

/-- Words are numbers or keywords, blanks are blanks, and literals are as they are to be. -/
def Document.Proper : Document L → Prop
  | .word w => (∀ c ∈ w, isWordChar c = true) ∧ (readWord double w).isSome = true
  | .literal l => literal l
  | .spaced before t after => Blank before ∧ t.Proper ∧ Blank after
  | .array blank items => Blank blank ∧ items.Proper
  | .object blank members => Blank blank ∧ members.Proper

def Items.Proper : Items L → Prop
  | .nil => True
  | .cons t rest => t.Proper ∧ rest.Proper

def Members.Proper : Members L → Prop
  | .nil => True
  | .cons before key after t rest => Blank before ∧ literal key ∧ Blank after ∧ t.Proper ∧ rest.Proper

end

section Imp
variable {double : String → Number} {literal literal' : L → Prop}

mutual

theorem Document.proper_imp (implies : ∀ l, literal l → literal' l) (t : Document L) (is : t.Proper double literal) :
    t.Proper double literal' := by
  cases t with
  | word w => exact is
  | literal l => exact implies l is
  | spaced before t after => exact ⟨is.1,t.proper_imp implies is.2.1,is.2.2⟩
  | array blank items => exact ⟨is.1,items.proper_imp implies is.2⟩
  | object blank members => exact ⟨is.1,members.proper_imp implies is.2⟩

theorem Items.proper_imp (implies : ∀ l, literal l → literal' l) (items : Items L) (is : items.Proper double literal) :
    items.Proper double literal' := by
  cases items with
  | nil => trivial
  | cons t rest => exact ⟨t.proper_imp implies is.1,rest.proper_imp implies is.2⟩

theorem Members.proper_imp (implies : ∀ l, literal l → literal' l) (members : Members L) (is : members.Proper double literal) :
    members.Proper double literal' := by
  cases members with
  | nil => trivial
  | cons before key after t rest =>
    obtain ⟨isBefore,isKey,isAfter,isValue,others⟩ := is
    exact ⟨isBefore,implies key isKey,isAfter,t.proper_imp implies isValue,rest.proper_imp implies others⟩

end

end Imp
end Values

section Reading
variable {double : String → Number}

/-- A reader that has read as far as a parser, but for a word that may not have ended. -/
def Ready (double : String → Number) (s : Reader) (p : Parser) : Prop :=
  s = ⟨.between,p⟩ ∨ ∃ w v before, s = ⟨.inWord w,before⟩ ∧ readWord double w = some v ∧ before.next (.scalar v) = some p

variable {s : Reader} {p : Parser}

theorem feed_ready (ready : Ready double s p) {c : Char} (ends : isWordChar c = false) :
    Reader.feed double s c = Reader.feed double ⟨.between,p⟩ c := by
  rcases ready with rfl | ⟨w,v,before,rfl,read,moved⟩
  · rfl
  · simp only [Reader.feed,Lexer.next,ends,Bool.false_eq_true,if_false,read]
    cases Lexer.open c with
    | none => rfl
    | some opened =>
      obtain ⟨lexer,tokens⟩ := opened
      simp [List.foldlM_cons,moved]

theorem feed_ready_cons (ready : Ready double s p) {c : Char} (ends : isWordChar c = false) (rest : List Char) :
    (c :: rest).foldlM (Reader.feed double) s = (c :: rest).foldlM (Reader.feed double) ⟨.between,p⟩ := by
  rw [List.foldlM_cons,List.foldlM_cons,feed_ready ready ends]

theorem feed_blank {blank : List Char} (is : Blank blank) (p : Parser) :
    blank.foldlM (Reader.feed double) ⟨.between,p⟩ = some ⟨.between,p⟩ := by
  induction blank with
  | nil => rfl
  | cons c rest ih =>
    have one : Reader.feed double ⟨.between,p⟩ c = some ⟨.between,p⟩ := by
      rcases is c List.mem_cons_self with rfl | rfl | rfl | rfl <;> rfl
    rw [List.foldlM_cons,one]
    exact ih fun c' listed => is c' (List.mem_cons_of_mem _ listed)

theorem ready_blank {blank : List Char} (is : Blank blank) (ready : Ready double s p) :
    ∃ s', blank.foldlM (Reader.feed double) s = some s' ∧ Ready double s' p := by
  cases blank with
  | nil => exact ⟨s,rfl,ready⟩
  | cons c rest =>
    have ends : isWordChar c = false := by
      rcases is c List.mem_cons_self with rfl | rfl | rfl | rfl <;> rfl
    exact ⟨⟨.between,p⟩,by rw [feed_ready_cons ready ends,feed_blank is],.inl rfl⟩

/-- A parser where a value is to begin; the stack is the one around the value. -/
def Awaits (p : Parser) (stack : List Frame) : Prop := ∀ token, token ≠ .closeBracket → p.next token = beginValue stack token

theorem awaits_value (stack : List Frame) : Awaits (stack,.value) stack := fun _ _ => rfl

theorem awaits_firstItem (stack : List Frame) : Awaits (stack,.firstItem) (.items [] :: stack) := by
  intro token other
  cases token with
  | closeBracket => exact absurd rfl other
  | _ => rfl

section Documents
variable {write : L → List Char} {decode : L → String}

/-- A literal whose characters are read as its text. -/
def Reads (double : String → Number) (write : L → List Char) (decode : L → String) (l : L) : Prop :=
  ∃ units, String.ofList (Utf16Text.wellFormed units) = decode l ∧
    ∀ p, (write l).foldlM (Reader.feed double) ⟨.inString [],p⟩ = some ⟨.inString units,p⟩

theorem feed_literal {l : L} (reads : Reads double write decode l) (rest : List Char) (p : Parser) :
    (quoted write l ++ rest).foldlM (Reader.feed double) ⟨.between,p⟩ =
      (p.next (.string (decode l))).bind fun p' => rest.foldlM (Reader.feed double) ⟨.between,p'⟩ := by
  obtain ⟨units,decoded,fed⟩ := reads
  have begins : Reader.feed double ⟨.between,p⟩ '"' = some ⟨.inString [],p⟩ := rfl
  have ends : Reader.feed double ⟨.inString units,p⟩ '"' = (p.next (.string (decode l))).map fun p' => ⟨.between,p'⟩ := by
    have closes : Lexer.next double (.inString units) '"' = some (.between,[.string (decode l)]) := by
      rw [← decoded]
      rfl
    simp only [Reader.feed,closes,List.foldlM_cons,List.foldlM_nil]
    cases p.next (.string (decode l)) <;> rfl
  rw [quoted,List.cons_append,List.foldlM_cons,begins]
  show ((write l ++ ['"']) ++ rest).foldlM (Reader.feed double) ⟨.inString [],p⟩ = _
  rw [List.append_assoc,feed_append,fed,Option.bind_some,List.singleton_append,List.foldlM_cons,ends]
  cases p.next (.string (decode l)) <;> rfl

theorem feed_key {stack : List Frame} {place : Place} {done : List (String × Json)}
    (atKey : ∀ text, Parser.next (stack,place) (.string text) = some (stack,.colon done text)) {before after : List Char} {key : L}
    (blankBefore : Blank before) (reads : Reads double write decode key) (blankAfter : Blank after) (rest : List Char) :
    (before ++ (quoted write key ++ (after ++ ':' :: rest))).foldlM (Reader.feed double) ⟨.between,(stack,place)⟩ =
      rest.foldlM (Reader.feed double) ⟨.between,(.members done (decode key) :: stack,.value)⟩ := by
  rw [feed_append,feed_blank blankBefore,Option.bind_some,feed_literal reads,atKey,Option.bind_some,feed_append,
    feed_blank blankAfter,Option.bind_some,List.foldlM_cons]
  rfl

theorem open_word {c : Char} (letter : isWordChar c = true) : Lexer.open c = some (.inWord [c],[]) := by
  unfold Lexer.open
  split
  all_goals first
    | exact absurd letter (by decide)
    | rw [if_pos letter]

theorem feed_letters {w : List Char} (letters : ∀ c ∈ w, isWordChar c = true) (begun : List Char) (p : Parser) :
    w.foldlM (Reader.feed double) ⟨.inWord begun,p⟩ = some ⟨.inWord (begun ++ w),p⟩ := by
  induction w generalizing begun with
  | nil => simp
  | cons c rest ih =>
    have one : Reader.feed double ⟨.inWord begun,p⟩ c = some ⟨.inWord (begun ++ [c]),p⟩ :=
      feed_silent (by simp [Lexer.next,letters c List.mem_cons_self]) p
    rw [List.foldlM_cons,one]
    show rest.foldlM (Reader.feed double) ⟨.inWord (begun ++ [c]),p⟩ = _
    rw [ih fun c' listed => letters c' (List.mem_cons_of_mem _ listed),List.append_assoc,List.singleton_append]

theorem feed_word {w : List Char} (letters : ∀ c ∈ w, isWordChar c = true) (some_ : w ≠ []) (p : Parser) :
    w.foldlM (Reader.feed double) ⟨.between,p⟩ = some ⟨.inWord w,p⟩ := by
  cases w with
  | nil => exact absurd rfl some_
  | cons c rest =>
    have opens : Lexer.next double .between c = some (.inWord [c],[]) := open_word (letters c List.mem_cons_self)
    have one : Reader.feed double ⟨.between,p⟩ c = some ⟨.inWord [c],p⟩ := feed_silent opens p
    rw [List.foldlM_cons,one]
    exact feed_letters (fun c' listed => letters c' (List.mem_cons_of_mem _ listed)) [c] p

theorem feed_token {c : Char} {token : Token} (opens : Lexer.open c = some (.between,[token])) (p : Parser) :
    Reader.feed double ⟨.between,p⟩ c = (p.next token).map fun p' => ⟨.between,p'⟩ := by
  simp only [Reader.feed,Lexer.next,opens,List.foldlM_cons,List.foldlM_nil]
  cases p.next token <;> rfl

mutual

theorem feed_document (t : Document L) (proper : t.Proper double (Reads double write decode)) {p : Parser} {stack : List Frame}
    (awaits : Awaits p stack) : ∃ s, (t.text write).foldlM (Reader.feed double) ⟨.between,p⟩ = some s ∧
      Ready double s (stack,.behind (t.value double decode)) := by
  cases t with
  | word w =>
    obtain ⟨letters,readable⟩ := proper
    obtain ⟨v,read⟩ := Option.isSome_iff_exists.mp readable
    have some_ : w ≠ [] := by
      rintro rfl
      cases read
    refine ⟨_,feed_word letters some_ p,.inr ⟨w,v,p,rfl,read,?_⟩⟩
    rw [awaits _ (by simp),Document.value,read]
    rfl
  | literal l =>
    have fed := feed_literal proper [] p
    rw [List.append_nil,awaits _ (by simp)] at fed
    exact ⟨_,fed,.inl rfl⟩
  | spaced before t after =>
    obtain ⟨blankBefore,inner,blankAfter⟩ := proper
    obtain ⟨s,read,ready⟩ := feed_document t inner awaits
    obtain ⟨s',read',ready'⟩ := ready_blank blankAfter ready
    refine ⟨s',?_,ready'⟩
    rw [Document.text,feed_append,feed_blank blankBefore,Option.bind_some,feed_append,read,Option.bind_some,read']
  | array blank items =>
    obtain ⟨isBlank,inner⟩ := proper
    have opened : Reader.feed double ⟨.between,p⟩ '[' = some ⟨.between,(stack,.firstItem)⟩ := by
      rw [feed_token rfl,awaits _ (by simp)]
      rfl
    refine ⟨⟨.between,(stack,.behind (.array (items.values double decode)))⟩,?_,.inl rfl⟩
    rw [Document.text,List.foldlM_cons,opened]
    show (blank ++ (items.text write ++ [']'])).foldlM (Reader.feed double) ⟨.between,(stack,.firstItem)⟩ = _
    rw [feed_append,feed_blank isBlank,Option.bind_some]
    cases items with
    | nil => rfl
    | cons t rest =>
      obtain ⟨first,others⟩ := inner
      obtain ⟨s,read,ready⟩ := feed_document t first (awaits_firstItem stack)
      rw [Items.text,List.append_assoc,feed_append,read,Option.bind_some,feed_items rest others ready]
      rfl
  | object blank members =>
    obtain ⟨isBlank,inner⟩ := proper
    have opened : Reader.feed double ⟨.between,p⟩ '{' = some ⟨.between,(stack,.firstKey)⟩ := by
      rw [feed_token rfl,awaits _ (by simp)]
      rfl
    refine ⟨⟨.between,(stack,.behind (.object (members.values double decode)))⟩,?_,.inl rfl⟩
    rw [Document.text,List.foldlM_cons,opened]
    show (blank ++ (members.text write ++ ['}'])).foldlM (Reader.feed double) ⟨.between,(stack,.firstKey)⟩ = _
    rw [feed_append,feed_blank isBlank,Option.bind_some]
    cases members with
    | nil => rfl
    | cons before key after t rest =>
      obtain ⟨blankBefore,reads,blankAfter,value,others⟩ := inner
      obtain ⟨s,read,ready⟩ := feed_document t value (awaits_value (.members [] (decode key) :: stack))
      have keyed := @feed_key _ double _ _ stack .firstKey [] (fun text => rfl) _ _ _ blankBefore reads blankAfter
        (t.text write ++ (rest.more write ++ ['}']))
      have texts : (Members.cons before key after t rest).text write ++ ['}'] =
          before ++ (quoted write key ++ (after ++ ':' :: (t.text write ++ (rest.more write ++ ['}'])))) := by
        simp [Members.text]
      rw [texts,keyed,feed_append,read,Option.bind_some,feed_members rest others ready]
      rfl

theorem feed_items (items : Items L) (proper : items.Proper double (Reads double write decode)) {s : Reader} {stack : List Frame}
    {done : List Json} {v : Json} (ready : Ready double s (.items done :: stack,.behind v)) :
    (items.more write ++ [']']).foldlM (Reader.feed double) s =
      some ⟨.between,(stack,.behind (.array (done ++ v :: items.values double decode)))⟩ := by
  cases items with
  | nil =>
    rw [Items.more,List.nil_append,feed_ready_cons ready rfl]
    rfl
  | cons t rest =>
    obtain ⟨value,others⟩ := proper
    obtain ⟨s',read,ready'⟩ := feed_document t value (awaits_value (.items (done ++ [v]) :: stack))
    have comma : Reader.feed double ⟨.between,(.items done :: stack,.behind v)⟩ ',' =
        some ⟨.between,(.items (done ++ [v]) :: stack,.value)⟩ := rfl
    rw [Items.more,List.cons_append,feed_ready_cons ready rfl,List.foldlM_cons,comma,List.append_assoc]
    show (t.text write ++ (rest.more write ++ [']'])).foldlM (Reader.feed double) ⟨.between,(.items (done ++ [v]) :: stack,.value)⟩ = _
    rw [feed_append,read,Option.bind_some,feed_items rest others ready',List.append_assoc]
    rfl

theorem feed_members (members : Members L) (proper : members.Proper double (Reads double write decode)) {s : Reader}
    {stack : List Frame} {done : List (String × Json)} {key : String} {v : Json}
    (ready : Ready double s (.members done key :: stack,.behind v)) :
    (members.more write ++ ['}']).foldlM (Reader.feed double) s =
      some ⟨.between,(stack,.behind (.object (done ++ (key,v) :: members.values double decode)))⟩ := by
  cases members with
  | nil =>
    rw [Members.more,List.nil_append,feed_ready_cons ready rfl]
    rfl
  | cons before next after t rest =>
    obtain ⟨blankBefore,reads,blankAfter,value,others⟩ := proper
    obtain ⟨s',read,ready'⟩ := feed_document t value (awaits_value (.members (done ++ [(key,v)]) (decode next) :: stack))
    have comma : Reader.feed double ⟨.between,(.members done key :: stack,.behind v)⟩ ',' =
        some ⟨.between,(stack,.key (done ++ [(key,v)]))⟩ := rfl
    have keyed := @feed_key _ double _ _ stack (.key (done ++ [(key,v)])) (done ++ [(key,v)]) (fun text => rfl) _ _ _ blankBefore reads
      blankAfter (t.text write ++ (rest.more write ++ ['}']))
    have texts : (Members.cons before next after t rest).more write ++ ['}'] =
        ',' :: (before ++ (quoted write next ++ (after ++ ':' :: (t.text write ++ (rest.more write ++ ['}']))))) := by
      simp [Members.more]
    rw [texts,feed_ready_cons ready rfl,List.foldlM_cons,comma]
    show (before ++ (quoted write next ++ (after ++ ':' :: (t.text write ++ (rest.more write ++ ['}']))))).foldlM (Reader.feed double)
      ⟨.between,(stack,.key (done ++ [(key,v)]))⟩ = _
    rw [keyed,feed_append,read,Option.bind_some,feed_members rest others ready',List.append_assoc]
    rfl

end

theorem parse_document (t : Document L) (proper : t.Proper double (Reads double write decode)) :
    parse double (String.ofList (t.text write)) = some (t.value double decode) := by
  obtain ⟨s,read,ready⟩ := feed_document t proper (awaits_value [])
  rw [parse,String.toList_ofList,read]
  rcases ready with rfl | ⟨w,v,before,rfl,word,moved⟩
  · rfl
  · simp [Lexer.finish,word,List.foldlM_cons,moved]

end Documents
end Reading

end StellarAlerts.JsonDocuments
