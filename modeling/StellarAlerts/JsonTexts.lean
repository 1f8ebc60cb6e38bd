import StellarAlerts.HexText
import StellarAlerts.Numbers
import StellarAlerts.Utf16Text

/-!
JSON values, their texts, and a machine that reads a text character by character: it
forms tokens, and behind them it keeps the arrays and objects that are still open. An
object of texts is read back from what `JSON.stringify` writes (`parse_stringify`).
-/
namespace StellarAlerts.JsonTexts
open HexText (hexDigit hexDigit_value)
open IntegerText (digitValue)
open Numbers
open Utf16Text (wellFormed wellFormed_encode encode)

inductive Json where
  | null
  | bool (b : Bool)
  | number (n : Number)
  | string (s : String)
  | array (items : List Json)
  | object (members : List (String × Json))

def lookup (members : List (String × Json)) (key : String) : Option Json :=
  (members.reverse.find? fun member => member.1 = key).map Prod.snd

theorem lookup_cons (name key : String) (value : Json) (rest : List (String × Json)) :
    lookup ((name,value) :: rest) key = (lookup rest key).or (if name = key then some value else none) := by
  rw [lookup,List.reverse_cons,List.find?_append,Option.map_or,← lookup,List.find?_singleton]
  by_cases own : name = key
  · simp [own]
  · simp [own]

theorem mem_of_lookup {members : List (String × Json)} {key : String} {value : Json} (found : lookup members key = some value) :
    ∃ name, (name,value) ∈ members := by
  obtain ⟨member,is,rfl⟩ := Option.map_eq_some_iff.mp found
  exact ⟨member.1,List.mem_reverse.mp (List.mem_of_find?_eq_some is)⟩

theorem sizeOf_lookup {members : List (String × Json)} {key : String} {value : Json} (found : lookup members key = some value) :
    sizeOf value < sizeOf (Json.object members) := by
  obtain ⟨name,listed⟩ := mem_of_lookup found
  have member := List.sizeOf_lt_of_mem listed
  simp only [Prod.mk.sizeOf_spec] at member
  simp only [Json.object.sizeOf_spec]
  omega

inductive Token where
  | openBrace
  | closeBrace
  | openBracket
  | closeBracket
  | colon
  | comma
  | string (s : String)
  | scalar (v : Json)

/-- Within which token the text has been cut. A string is kept by its units. -/
inductive Lexer where
  | between
  | inString (units : List Nat)
  | escaped (units : List Nat)
  | code (units digits : List Nat)
  | inWord (word : List Char)

def isWordChar (c : Char) : Bool := c.isAlphanum || ['+','-','.'].contains c

def isExponent : List Char → Bool
  | [] => true
  | e :: rest =>
    let digits := match rest with
      | '+' :: digits => digits
      | '-' :: digits => digits
      | digits => digits
    (e = 'e' || e = 'E') && !digits.isEmpty && digits.all Char.isDigit

def isFraction : List Char → Bool
  | '.' :: rest => !(rest.takeWhile Char.isDigit).isEmpty && isExponent (rest.dropWhile Char.isDigit)
  | rest => isExponent rest

/-- The numbers of the grammar: no leading zeros, no sign but a minus. -/
def isNumber (word : List Char) : Bool :=
  let body := match word with
    | '-' :: rest => rest
    | rest => rest
  let whole := body.takeWhile Char.isDigit
  (whole = ['0'] || !whole.isEmpty && whole.head? ≠ some '0') && isFraction (body.dropWhile Char.isDigit)

section Reading
variable (double : String → Number)

def readWord (word : List Char) : Option Json :=
  match String.ofList word with
  | "null" => some .null
  | "true" => some (.bool true)
  | "false" => some (.bool false)
  | text => if isNumber word then some (.number (double text)) else none

/-- A character between tokens. -/
def Lexer.open (c : Char) : Option (Lexer × List Token) :=
  match c with
  | ' ' | '\t' | '\n' | '\r' => some (.between,[])
  | '{' => some (.between,[.openBrace])
  | '}' => some (.between,[.closeBrace])
  | '[' => some (.between,[.openBracket])
  | ']' => some (.between,[.closeBracket])
  | ':' => some (.between,[.colon])
  | ',' => some (.between,[.comma])
  | '"' => some (.inString [],[])
  | c => if isWordChar c then some (.inWord [c],[]) else none

def shortEscape (c : Char) : Option Nat :=
  match c with
  | '"' => some 0x22
  | '\\' => some 0x5C
  | '/' => some 0x2F
  | 'b' => some 8
  | 'f' => some 12
  | 'n' => some 10
  | 'r' => some 13
  | 't' => some 9
  | _ => none

def Lexer.next (lexer : Lexer) (c : Char) : Option (Lexer × List Token) :=
  match lexer with
  | .between => Lexer.open c
  | .inString units =>
    if c = '"' then some (.between,[.string (String.ofList (wellFormed units))])
    else if c = '\\' then some (.escaped units,[])
    else if c.toNat < 0x20 then none
    else some (.inString (units ++ Utf16Text.units c),[])
  | .escaped units =>
    if c = 'u' then some (.code units [],[])
    else (shortEscape c).map fun unit => (.inString (units ++ [unit]),[])
  | .code units digits =>
    match digitValue c with
    | none => none
    | some digit =>
      match digits with
      | [a,b,d] => some (.inString (units ++ [((a * 16 + b) * 16 + d) * 16 + digit]),[])
      | _ => some (.code units (digits ++ [digit]),[])
  | .inWord word =>
    if isWordChar c then some (.inWord (word ++ [c]),[])
    else
      match readWord double word, Lexer.open c with
      | some v, some (lexer,tokens) => some (lexer,.scalar v :: tokens)
      | _, _ => none

/-- The tokens that the end of the text completes. -/
def Lexer.finish : Lexer → Option (List Token)
  | .between => some []
  | .inWord word => (readWord double word).map fun v => [.scalar v]
  | _ => none

/-- An array or an object that is open around the present place. -/
inductive Frame where
  | items (done : List Json)
  | members (done : List (String × Json)) (key : String)

/-- What the next token stands next to. -/
inductive Place where
  | value
  | firstItem
  | firstKey
  | key (done : List (String × Json))
  | colon (done : List (String × Json)) (key : String)
  | behind (v : Json)

abbrev Parser := List Frame × Place

def beginValue (stack : List Frame) : Token → Option Parser
  | .string s => some (stack,.behind (.string s))
  | .scalar v => some (stack,.behind v)
  | .openBracket => some (stack,.firstItem)
  | .openBrace => some (stack,.firstKey)
  | _ => none

def Parser.next : Parser → Token → Option Parser
  | (stack,.value), token => beginValue stack token
  | (stack,.firstItem), .closeBracket => some (stack,.behind (.array []))
  | (stack,.firstItem), token => beginValue (.items [] :: stack) token
  | (stack,.firstKey), .closeBrace => some (stack,.behind (.object []))
  | (stack,.firstKey), .string s => some (stack,.colon [] s)
  | (stack,.key done), .string s => some (stack,.colon done s)
  | (stack,.colon done key), .colon => some (.members done key :: stack,.value)
  | (.items done :: stack,.behind v), .comma => some (.items (done ++ [v]) :: stack,.value)
  | (.items done :: stack,.behind v), .closeBracket => some (stack,.behind (.array (done ++ [v])))
  | (.members done key :: stack,.behind v), .comma => some (stack,.key (done ++ [(key,v)]))
  | (.members done key :: stack,.behind v), .closeBrace => some (stack,.behind (.object (done ++ [(key,v)])))
  | _, _ => none

structure Reader where
  lexer : Lexer
  parser : Parser

def Reader.feed (s : Reader) (c : Char) : Option Reader :=
  match s.lexer.next double c with
  | none => none
  | some (lexer,tokens) => (tokens.foldlM Parser.next s.parser).map fun parser => ⟨lexer,parser⟩

/-- `JSON.parse(text)`; none where it throws a SyntaxError. -/
def parse (text : String) : Option Json :=
  match text.toList.foldlM (Reader.feed double) ⟨.between,([],.value)⟩ with
  | none => none
  | some s =>
    match s.lexer.finish double with
    | none => none
    | some tokens =>
      match tokens.foldlM Parser.next s.parser with
      | some ([],.behind v) => some v
      | _ => none

end Reading

def quoteChar (c : Char) : List Char :=
  if c = '"' then ['\\','"']
  else if c = '\\' then ['\\','\\']
  else if c.toNat = 8 then ['\\','b']
  else if c.toNat = 12 then ['\\','f']
  else if c.toNat = 10 then ['\\','n']
  else if c.toNat = 13 then ['\\','r']
  else if c.toNat = 9 then ['\\','t']
  else if c.toNat < 0x20 then ['\\','u','0','0',hexDigit (c.toNat / 16),hexDigit (c.toNat % 16)]
  else [c]

def quote (text : String) : List Char := '"' :: (text.toList.flatMap quoteChar ++ ['"'])

def memberTexts : List (String × String) → List Char
  | [] => []
  | [(key,text)] => quote key ++ ':' :: quote text
  | (key,text) :: rest => quote key ++ ':' :: (quote text ++ ',' :: memberTexts rest)

/-- `JSON.stringify` of an object whose values are texts. -/
def stringify (members : List (String × String)) : String := String.ofList ('{' :: (memberTexts members ++ ['}']))

section Back
variable {double : String → Number}

theorem feed_append (first second : List Char) (s : Reader) :
    (first ++ second).foldlM (Reader.feed double) s =
      (first.foldlM (Reader.feed double) s).bind fun s' => second.foldlM (Reader.feed double) s' := List.foldlM_append

theorem feed_silent {c : Char} {lexer lexer' : Lexer} (moves : lexer.next double c = some (lexer',[])) (p : Parser) :
    Reader.feed double ⟨lexer,p⟩ c = some ⟨lexer',p⟩ := by
  simp [Reader.feed,moves]

theorem char_of_code {c : Char} {n : Nat} (code : c.toNat = n) : c = Char.ofNat n := by rw [← code,Char.ofNat_toNat]

theorem feed_code {high low : Nat} (isHigh : high < 16) (isLow : low < 16) (units : List Nat) (p : Parser) :
    ['\\','u','0','0',hexDigit high,hexDigit low].foldlM (Reader.feed double) ⟨.inString units,p⟩ =
      some ⟨.inString (units ++ [high * 16 + low]),p⟩ := by
  have start : ['\\','u','0','0'].foldlM (Reader.feed double) ⟨.inString units,p⟩ = some ⟨.code units [0,0],p⟩ := rfl
  have third : Reader.feed double ⟨.code units [0,0],p⟩ (hexDigit high) = some ⟨.code units [0,0,high],p⟩ :=
    feed_silent (by simp [Lexer.next,hexDigit_value high isHigh]) p
  have fourth : Reader.feed double ⟨.code units [0,0,high],p⟩ (hexDigit low) = some ⟨.inString (units ++ [high * 16 + low]),p⟩ :=
    feed_silent (by simp [Lexer.next,hexDigit_value low isLow]) p
  calc ['\\','u','0','0',hexDigit high,hexDigit low].foldlM (Reader.feed double) ⟨.inString units,p⟩
      = (['\\','u','0','0'].foldlM (Reader.feed double) ⟨.inString units,p⟩).bind
          fun s => [hexDigit high,hexDigit low].foldlM (Reader.feed double) s := feed_append ['\\','u','0','0'] _ _
    _ = some ⟨.inString (units ++ [high * 16 + low]),p⟩ := by
      rw [start,Option.bind_some,List.foldlM_cons,third]
      show [hexDigit low].foldlM (Reader.feed double) ⟨.code units [0,0,high],p⟩ = _
      rw [List.foldlM_cons,fourth]
      rfl

theorem feed_quoteChar (c : Char) (units : List Nat) (p : Parser) :
    (quoteChar c).foldlM (Reader.feed double) ⟨.inString units,p⟩ = some ⟨.inString (units ++ Utf16Text.units c),p⟩ := by
  unfold quoteChar
  by_cases isQuote : c = '"'
  · subst isQuote
    rfl
  rw [if_neg isQuote]
  by_cases isBackslash : c = '\\'
  · subst isBackslash
    rfl
  rw [if_neg isBackslash]
  by_cases isBackspace : c.toNat = 8
  · rw [if_pos isBackspace,char_of_code isBackspace]
    rfl
  rw [if_neg isBackspace]
  by_cases isFormFeed : c.toNat = 12
  · rw [if_pos isFormFeed,char_of_code isFormFeed]
    rfl
  rw [if_neg isFormFeed]
  by_cases isNewline : c.toNat = 10
  · rw [if_pos isNewline,char_of_code isNewline]
    rfl
  rw [if_neg isNewline]
  by_cases isReturn : c.toNat = 13
  · rw [if_pos isReturn,char_of_code isReturn]
    rfl
  rw [if_neg isReturn]
  by_cases isTab : c.toNat = 9
  · rw [if_pos isTab,char_of_code isTab]
    rfl
  rw [if_neg isTab]
  by_cases isControl : c.toNat < 0x20
  · have code : Utf16Text.units c = [c.toNat / 16 * 16 + c.toNat % 16] := by
      rw [Utf16Text.units,if_pos (by omega)]
      congr 1
      omega
    rw [if_pos isControl,feed_code (by omega) (by omega),code]
  · have plain : Lexer.next double (.inString units) c = some (.inString (units ++ Utf16Text.units c),[]) := by
      simp [Lexer.next,isQuote,isBackslash,isControl]
    rw [if_neg isControl,List.foldlM_cons,feed_silent plain]
    rfl

theorem feed_quoted (word : List Char) (units : List Nat) (p : Parser) :
    (word.flatMap quoteChar).foldlM (Reader.feed double) ⟨.inString units,p⟩ =
      some ⟨.inString (units ++ encode word),p⟩ := by
  induction word generalizing units with
  | nil => simp [encode]
  | cons c rest ih =>
    rw [List.flatMap_cons,feed_append,feed_quoteChar,Option.bind_some,ih]
    simp [encode]

theorem feed_quote (text : String) (rest : List Char) (p : Parser) :
    (quote text ++ rest).foldlM (Reader.feed double) ⟨.between,p⟩ =
      (p.next (.string text)).bind fun p' => rest.foldlM (Reader.feed double) ⟨.between,p'⟩ := by
  have begins : Reader.feed double ⟨.between,p⟩ '"' = some ⟨.inString [],p⟩ := rfl
  have ends : Reader.feed double ⟨.inString (encode text.toList),p⟩ '"' =
      (p.next (.string text)).map fun p' => ⟨.between,p'⟩ := by
    have closes : Lexer.next double (.inString (encode text.toList)) '"' = some (.between,[.string text]) := by
      show some (Lexer.between,[Token.string (String.ofList (wellFormed (encode text.toList)))]) = _
      rw [wellFormed_encode,String.ofList_toList]
    simp only [Reader.feed,closes,List.foldlM_cons,List.foldlM_nil]
    cases p.next (.string text) <;> rfl
  rw [quote,List.cons_append,List.foldlM_cons,begins]
  show ((text.toList.flatMap quoteChar ++ ['"']) ++ rest).foldlM (Reader.feed double) ⟨.inString [],p⟩ = _
  rw [List.append_assoc,feed_append,feed_quoted,List.nil_append,Option.bind_some,List.singleton_append,List.foldlM_cons,ends]
  cases p.next (.string text) <;> rfl

/-- From the brace or a comma on, the members are read up to the last value. -/
theorem feed_members {members : List (String × String)} (some_ : members ≠ []) (rest : List Char) {place : Place}
    {done : List (String × Json)} (atKey : ∀ s, Parser.next ([],place) (.string s) = some ([],.colon done s)) :
    ∃ key text first, members = first ++ [(key,text)] ∧
      (memberTexts members ++ rest).foldlM (Reader.feed double) ⟨.between,([],place)⟩ =
        rest.foldlM (Reader.feed double)
          ⟨.between,([.members (done ++ first.map fun m => (m.1,.string m.2)) key],.behind (.string text))⟩ := by
  induction members generalizing place done with
  | nil => exact absurd rfl some_
  | cons member others ih =>
    obtain ⟨key,text⟩ := member
    have pair : ∀ after : List Char, (quote key ++ ':' :: (quote text ++ after)).foldlM (Reader.feed double) ⟨.between,([],place)⟩ =
        after.foldlM (Reader.feed double) ⟨.between,([.members done key],.behind (.string text))⟩ := by
      intro after
      rw [feed_quote,atKey,Option.bind_some,List.foldlM_cons]
      show (quote text ++ after).foldlM (Reader.feed double) ⟨.between,([.members done key],.value)⟩ = _
      rw [feed_quote]
      rfl
    cases others with
    | nil =>
      refine ⟨key,text,[],rfl,?_⟩
      rw [memberTexts,List.append_assoc,List.cons_append,pair,List.map_nil,List.append_nil]
    | cons next more =>
      obtain ⟨lastKey,lastText,first,membersAre,fed⟩ := ih (by simp) fun s => (rfl :
        Parser.next ([],.key (done ++ [(key,.string text)])) (.string s) = some ([],.colon (done ++ [(key,.string text)]) s))
      refine ⟨lastKey,lastText,(key,text) :: first,by rw [membersAre,List.cons_append],?_⟩
      have texts : memberTexts ((key,text) :: next :: more) =
          quote key ++ ':' :: (quote text ++ ',' :: memberTexts (next :: more)) := rfl
      rw [texts,List.append_assoc,List.cons_append,List.append_assoc,pair,List.cons_append,List.foldlM_cons]
      show (memberTexts (next :: more) ++ rest).foldlM (Reader.feed double)
        ⟨.between,([],.key (done ++ [(key,.string text)]))⟩ = _
      rw [fed]
      simp

/-- An object of texts is read back. -/
theorem parse_stringify {members : List (String × String)} (some_ : members ≠ []) :
    parse double (stringify members) = some (.object (members.map fun m => (m.1,.string m.2))) := by
  obtain ⟨key,text,first,membersAre,fed⟩ := @feed_members double members some_ ['}'] .firstKey [] (fun s => rfl)
  have read : (stringify members).toList.foldlM (Reader.feed double) ⟨.between,([],.value)⟩ =
      some ⟨.between,([],.behind (.object (members.map fun m => (m.1,.string m.2))))⟩ := by
    rw [stringify,String.toList_ofList,List.foldlM_cons]
    show (memberTexts members ++ ['}']).foldlM (Reader.feed double) ⟨.between,([],.firstKey)⟩ = _
    rw [fed,membersAre,List.map_append]
    rfl
  rw [parse,read]
  rfl

end Back

end StellarAlerts.JsonTexts
