import Mathlib.Data.List.Infix
import StellarAlerts.HexText
import StellarAlerts.Utf16Text

/-!
The signature header of a webhook, `t=<ms>,n=<nonce>,v1=<hex>`: the builder and the
parser with its rejections. Headers that the builder makes from a positive
safe integer, a nonce that no rule of the parser touches and a signature of 64
digits are parsed to the same values (`parse_build`).
-/
namespace StellarAlerts.WebhookHeader
open HexText (isHex)
open IntegerText Utf16Text

structure ParsedWebhookHeader where
  timestamp : Nat
  nonce : String
  signature : String
deriving DecidableEq, Repr

inductive HeaderValue where
  /-- null or undefined -/
  | missing
  | other
  | string (text : String)
deriving DecidableEq, Repr

def MAX_WEBHOOK_HEADER_LENGTH : Nat := 8192
def MAX_NONCE_LENGTH : Nat := 128

/-- `Number.MAX_SAFE_INTEGER`. -/
def MAX_SAFE_INTEGER : Nat := 9007199254740991

/-- The class of `CONTROL_CHAR_REGEX`. -/
def isControl (c : Char) : Bool := decide (c.toNat ≤ 0x1F) || c.toNat == 0x7F

/-- `text.startsWith(start)`. -/
def startsWith (word : List Char) (start : String) : Bool := start.toList.isPrefixOf word

/-- The parts of the header that were found. -/
structure Parts where
  timestampPart : Option (List Char)
  noncePart : Option (List Char)
  signaturePart : Option (List Char)
deriving DecidableEq, Repr

/-- One round of the loop over the segments. -/
def Parts.read (parts : Parts) (part : List Char) : Except String Parts :=
  let trimmed := trim part
  if trimmed = [] then .error "Empty signature header segment"
  else if startsWith trimmed "t=" then
    if parts.timestampPart.isSome then .error "Duplicate timestamp field"
    else .ok { parts with timestampPart := some trimmed }
  else if startsWith trimmed "n=" then
    if parts.noncePart.isSome then .error "Duplicate nonce field"
    else .ok { parts with noncePart := some trimmed }
  else if startsWith trimmed "v1=" then
    if parts.signaturePart.isSome then .error "Duplicate signature field"
    else .ok { parts with signaturePart := some trimmed }
  else .error "Unknown signature header segment"

/-- The checks of the values, in their order. -/
def checkParts (parts : Parts) : Except String ParsedWebhookHeader :=
  match parts.timestampPart, parts.signaturePart with
  | some timestampPart, some signaturePart =>
    let timestampRaw := String.ofList (timestampPart.drop 2)
    let signature := String.ofList (signaturePart.drop 3)
    let nonce := String.ofList ((parts.noncePart.map (List.drop 2)).getD [])
    if !isDigits timestampRaw then .error "Invalid timestamp format"
    -- A number above the safe integers is rounded to one that is not safe either.
    else if MAX_SAFE_INTEGER < decimal timestampRaw ∨ decimal timestampRaw = 0 then .error "Invalid timestamp value"
    else if !isHex 64 signature then .error "Invalid signature format"
    else if MAX_NONCE_LENGTH < utf16Length nonce then .error "Nonce exceeds maximum length"
    else if nonce.toList.any isControl then .error "Nonce contains control characters"
    else .ok ⟨decimal timestampRaw,nonce,signature⟩
  | _, _ => .error "Missing required signature fields"

def parseWebhookSignatureHeader (headerValue : HeaderValue) : Except String ParsedWebhookHeader :=
  match headerValue with
  | .missing => .error "Missing signature header"
  | .other => .error "Signature header must be a string"
  | .string text =>
    if utf16Length text = 0 then .error "Empty signature header"
    else if MAX_WEBHOOK_HEADER_LENGTH < utf16Length text then .error "Signature header exceeds maximum length"
    else if text.toList.any isControl then .error "Signature header contains control characters"
    else if ¬ "t=".toList <:+: text.toList ∨ ¬ "v1=".toList <:+: text.toList then
      .error "Missing required signature fields"
    else
      let parts := text.toList.splitOn ','
      if parts.length < 2 ∨ 3 < parts.length then .error "Invalid signature header segment count"
      else
        match parts.foldlM Parts.read ⟨none,none,none⟩ with
        | .error reason => .error reason
        | .ok found => checkParts found

def buildWebhookHeaderValue (timestamp : Nat) (nonce signature : String) : String :=
  if nonce ≠ "" then s!"t={timestamp},n={nonce},v1={signature}" else s!"t={timestamp},v1={signature}"

/-- A nonce that the parser takes as it is. -/
structure PlainNonce (nonce : String) : Prop where
  comma : ',' ∉ nonce.toList
  control : nonce.toList.any isControl = false
  edges : trim nonce.toList = nonce.toList
  length : utf16Length nonce ≤ MAX_NONCE_LENGTH

structure Segment (label value : List Char) : Prop where
  comma : ',' ∉ label ++ value
  control : (label ++ value).any isControl = false
  first : ∀ c ∈ label.head?, isStrWhiteSpace c = false
  last : ∀ c ∈ value.getLast?, isStrWhiteSpace c = false
  some_ : label ≠ [] ∧ value ≠ []

theorem segment_trim {label value : List Char} (segment : Segment label value) : trim (label ++ value) = label ++ value := by
  obtain ⟨labelSome,valueSome⟩ := segment.some_
  apply trim_kept
  · rw [List.head?_append_of_ne_nil _ labelSome]
    exact segment.first
  · rw [List.getLast?_append_of_ne_nil _ valueSome]
    exact segment.last

theorem digit_plain {c : Char} (digit : c.isDigit = true) : c ≠ ',' ∧ isControl c = false := by
  obtain ⟨low,high⟩ := digit_range digit
  refine ⟨?_,?_⟩
  · rintro rfl
    exact absurd digit (by decide)
  · simp only [isControl,Bool.or_eq_false_iff,decide_eq_false_iff_not,beq_eq_false_iff_ne]
    omega

theorem hexChar_plain {c : Char} (hex : (digitValue c).isSome = true) :
    c ≠ ',' ∧ isControl c = false ∧ isStrWhiteSpace c = false ∧ c.toNat < 0x10000 := by
  have range := hexChar_range hex
  refine ⟨?_,?_,?_,by omega⟩
  · rintro rfl
    exact absurd hex (by decide)
  · simp only [isControl,Bool.or_eq_false_iff,decide_eq_false_iff_not,beq_eq_false_iff_ne]
    omega
  · simp only [isStrWhiteSpace,List.contains_eq_mem,List.mem_cons,List.not_mem_nil,or_false,Bool.or_eq_false_iff,
      decide_eq_false_iff_not,Bool.and_eq_false_iff,not_or]
    omega

theorem segment_timestamp (timestamp : Nat) : Segment ['t','='] (toString timestamp).toList := by
  obtain ⟨some_,digits⟩ := isDigits_iff.mp (decimal_toString timestamp).1
  have plain : ∀ c ∈ (toString timestamp).toList, c ≠ ',' ∧ isControl c = false := fun c listed => digit_plain (digits c listed)
  refine ⟨?_,?_,(by rintro c ⟨⟩; decide),?_,by simp,some_⟩
  · simp only [List.mem_append,not_or]
    exact ⟨by decide,fun listed => (plain _ listed).1 rfl⟩
  · rw [List.any_append,Bool.or_eq_false_iff]
    exact ⟨by decide,List.any_eq_false.mpr fun c listed => by simp [(plain c listed).2]⟩
  · intro c last
    exact digit_not_blank (digits c (List.mem_of_mem_getLast? last))

theorem segment_nonce {nonce : String} (plain : PlainNonce nonce) (some_ : nonce ≠ "") :
    Segment ['n','='] nonce.toList := by
  refine ⟨?_,?_,(by rintro c ⟨⟩; decide),last_of_trim plain.edges,by simp,?_⟩
  · simp only [List.mem_append,not_or]
    exact ⟨by decide,plain.comma⟩
  · rw [List.any_append,plain.control]
    decide
  · intro empty
    exact some_ (String.toList_injective empty)

theorem segment_signature {signature : String} (hex : isHex 64 signature = true) :
    Segment ['v','1','='] signature.toList := by
  simp only [isHex,Bool.and_eq_true,beq_iff_eq,List.all_eq_true] at hex
  obtain ⟨length,digits⟩ := hex
  have plain := fun c listed => hexChar_plain (digits c listed)
  refine ⟨?_,?_,(by rintro c ⟨⟩; decide),?_,by simp,List.ne_nil_of_length_pos (by omega)⟩
  · simp only [List.mem_append,not_or]
    exact ⟨by decide,fun listed => (plain _ listed).1 rfl⟩
  · rw [List.any_append,Bool.or_eq_false_iff]
    exact ⟨by decide,List.any_eq_false.mpr fun c listed => by simp [(plain c listed).2.1]⟩
  · intro c last
    exact (plain c (List.mem_of_mem_getLast? last)).2.2.1

theorem read_timestamp {value : List Char} (segment : Segment ['t','='] value) (parts : Parts)
    (free : parts.timestampPart = none) :
    parts.read ('t' :: '=' :: value) = .ok { parts with timestampPart := some ('t' :: '=' :: value) } := by
  have trimmed : trim ('t' :: '=' :: value) = 't' :: '=' :: value := segment_trim segment
  simp [Parts.read,trimmed,startsWith,free]

theorem read_nonce {value : List Char} (segment : Segment ['n','='] value) (parts : Parts)
    (free : parts.noncePart = none) :
    parts.read ('n' :: '=' :: value) = .ok { parts with noncePart := some ('n' :: '=' :: value) } := by
  have trimmed : trim ('n' :: '=' :: value) = 'n' :: '=' :: value := segment_trim segment
  simp [Parts.read,trimmed,startsWith,free]

theorem read_signature {value : List Char} (segment : Segment ['v','1','='] value) (parts : Parts)
    (free : parts.signaturePart = none) :
    parts.read ('v' :: '1' :: '=' :: value) = .ok { parts with signaturePart := some ('v' :: '1' :: '=' :: value) } := by
  have trimmed : trim ('v' :: '1' :: '=' :: value) = 'v' :: '1' :: '=' :: value := segment_trim segment
  simp [Parts.read,trimmed,startsWith,free]

theorem build_toList (timestamp : Nat) (nonce signature : String) :
    (buildWebhookHeaderValue timestamp nonce signature).toList =
      (['t','='] ++ (toString timestamp).toList) ++ ',' ::
        (if nonce ≠ "" then (['n','='] ++ nonce.toList) ++ ',' :: (['v','1','='] ++ signature.toList)
         else ['v','1','='] ++ signature.toList) := by
  unfold buildWebhookHeaderValue
  by_cases none_ : nonce = ""
  · simp only [none_,ne_eq,not_true_eq_false,↓reduceIte,String.toList_append,List.append_assoc]
    rfl
  · simp only [none_,ne_eq,not_false_eq_true,↓reduceIte,String.toList_append,List.append_assoc]
    rfl

variable {timestamp : Nat}

theorem checkParts_built (safe : 0 < timestamp ∧ timestamp ≤ MAX_SAFE_INTEGER) {nonce signature : String}
    (plain : PlainNonce nonce) (hex : isHex 64 signature = true) {noncePart : Option (List Char)}
    (nonceIs : (noncePart.map (List.drop 2)).getD [] = nonce.toList) :
    checkParts ⟨some (['t','='] ++ (toString timestamp).toList),noncePart,some (['v','1','='] ++ signature.toList)⟩ =
      .ok ⟨timestamp,nonce,signature⟩ := by
  obtain ⟨digits,value⟩ := decimal_toString timestamp
  have raw : String.ofList ((['t','='] ++ (toString timestamp).toList).drop 2) = toString timestamp :=
    String.ofList_toList
  have rest : String.ofList ((['v','1','='] ++ signature.toList).drop 3) = signature := String.ofList_toList
  have range : ¬ (MAX_SAFE_INTEGER < timestamp ∨ timestamp = 0) := by omega
  have short : ¬ MAX_NONCE_LENGTH < utf16Length nonce := Nat.not_lt.mpr plain.length
  simp only [checkParts,nonceIs,String.ofList_toList,raw,rest,digits,value,hex,plain.control,range,short,Bool.not_true,
    Bool.false_eq_true,↓reduceIte]

theorem utf16Length_built (safe : timestamp ≤ MAX_SAFE_INTEGER) {nonce signature : String} (plain : PlainNonce nonce)
    (hex : isHex 64 signature = true) :
    utf16Length (buildWebhookHeaderValue timestamp nonce signature) ≠ 0 ∧
      utf16Length (buildWebhookHeaderValue timestamp nonce signature) ≤ MAX_WEBHOOK_HEADER_LENGTH := by
  have digits : utf16Length (toString timestamp) ≤ 16 := by
    have chars : (toString timestamp).toList = Nat.toDigits 10 timestamp := by rw [Nat.toString_eq_repr,Nat.toList_repr]
    rw [utf16Length_basic,chars]
    · exact (Nat.length_toDigits_le_iff (by decide) (by decide)).mpr (Nat.lt_of_le_of_lt safe (by decide))
    · intro c listed
      have range := digit_range ((isDigits_iff.mp (decimal_toString timestamp).1).2 c listed)
      omega
  have signed : utf16Length signature = 64 := by
    simp only [isHex,Bool.and_eq_true,beq_iff_eq,List.all_eq_true] at hex
    rw [utf16Length_basic fun c listed => (hexChar_plain (hex.2 c listed)).2.2.2,hex.1]
  have short := plain.length
  unfold utf16Length at *
  rw [build_toList]
  generalize (toString timestamp).toList = digitChars at digits
  by_cases none_ : nonce = ""
  · simp only [none_,ne_eq,not_true_eq_false,↓reduceIte,List.map_append,List.map_cons,List.map_nil,List.sum_append,
      List.sum_cons,List.sum_nil,signed,MAX_WEBHOOK_HEADER_LENGTH]
    refine ⟨by simp [width],?_⟩
    simp only [width]
    simp
    omega
  · simp only [none_,ne_eq,not_false_eq_true,↓reduceIte,List.map_append,List.map_cons,List.map_nil,List.sum_append,
      List.sum_cons,List.sum_nil,signed,MAX_WEBHOOK_HEADER_LENGTH,MAX_NONCE_LENGTH] at short ⊢
    refine ⟨by simp [width],?_⟩
    simp only [width]
    simp
    omega

theorem parse_of_parts {text : String} {parts : List (List Char)} {found : Parts} (some_ : utf16Length text ≠ 0)
    (short : utf16Length text ≤ MAX_WEBHOOK_HEADER_LENGTH) (control : text.toList.any isControl = false)
    (timestamp : ['t','='] <:+: text.toList) (signature : ['v','1','='] <:+: text.toList)
    (split : text.toList.splitOn ',' = parts) (count : 2 ≤ parts.length ∧ parts.length ≤ 3)
    (read : parts.foldlM Parts.read ⟨none,none,none⟩ = .ok found) :
    parseWebhookSignatureHeader (.string text) = checkParts found := by
  have present : ¬ (¬ "t=".toList <:+: text.toList ∨ ¬ "v1=".toList <:+: text.toList) :=
    fun absent => absent.elim (fun no => no timestamp) (fun no => no signature)
  have counted : ¬ (parts.length < 2 ∨ 3 < parts.length) := by omega
  have fits : ¬ MAX_WEBHOOK_HEADER_LENGTH < utf16Length text := Nat.not_lt.mpr short
  simp only [parseWebhookSignatureHeader,some_,fits,control,present,split,counted,read,Bool.false_eq_true,↓reduceIte]

theorem parse_two {text : String} {t v : List Char} (some_ : utf16Length text ≠ 0)
    (short : utf16Length text ≤ MAX_WEBHOOK_HEADER_LENGTH) (first : Segment ['t','='] t) (last : Segment ['v','1','='] v)
    (chars : text.toList = (['t','='] ++ t) ++ ',' :: (['v','1','='] ++ v)) :
    parseWebhookSignatureHeader (.string text) = checkParts ⟨some (['t','='] ++ t),none,some (['v','1','='] ++ v)⟩ := by
  have read : [['t','='] ++ t,['v','1','='] ++ v].foldlM Parts.read ⟨none,none,none⟩ =
      .ok ⟨some (['t','='] ++ t),none,some (['v','1','='] ++ v)⟩ := by
    simp [bind,Except.bind,pure,Except.pure,read_timestamp first,read_signature last]
  refine parse_of_parts some_ short ?_ ⟨[],_,chars.symm⟩ ⟨(['t','='] ++ t) ++ [','],v,by simp [chars]⟩ ?_ (by simp) read
  · rw [chars,List.any_append,List.any_cons,first.control,last.control]
    rfl
  · rw [chars,List.splitOn_append_cons_self,List.splitOn_eq_singleton first.comma,List.splitOn_eq_singleton last.comma]
    rfl

theorem parse_three {text : String} {t n v : List Char} (some_ : utf16Length text ≠ 0)
    (short : utf16Length text ≤ MAX_WEBHOOK_HEADER_LENGTH) (first : Segment ['t','='] t) (middle : Segment ['n','='] n)
    (last : Segment ['v','1','='] v)
    (chars : text.toList = (['t','='] ++ t) ++ ',' :: ((['n','='] ++ n) ++ ',' :: (['v','1','='] ++ v))) :
    parseWebhookSignatureHeader (.string text) =
      checkParts ⟨some (['t','='] ++ t),some (['n','='] ++ n),some (['v','1','='] ++ v)⟩ := by
  have read : [['t','='] ++ t,['n','='] ++ n,['v','1','='] ++ v].foldlM Parts.read ⟨none,none,none⟩ =
      .ok ⟨some (['t','='] ++ t),some (['n','='] ++ n),some (['v','1','='] ++ v)⟩ := by
    simp [bind,Except.bind,pure,Except.pure,read_timestamp first,read_nonce middle,read_signature last]
  refine parse_of_parts some_ short ?_ ⟨[],_,chars.symm⟩
    ⟨(['t','='] ++ t) ++ ',' :: (['n','='] ++ n) ++ [','],v,by simp [chars]⟩ ?_ (by simp) read
  · rw [chars,List.any_append,first.control,List.any_cons,List.any_append,middle.control,List.any_cons,last.control]
    rfl
  · rw [chars,List.splitOn_append_cons_self,List.splitOn_append_cons_self,List.splitOn_eq_singleton first.comma,
      List.splitOn_eq_singleton middle.comma,List.splitOn_eq_singleton last.comma]
    rfl

theorem parse_build (safe : 0 < timestamp ∧ timestamp ≤ MAX_SAFE_INTEGER) {nonce signature : String}
    (plain : PlainNonce nonce) (hex : isHex 64 signature = true) :
    parseWebhookSignatureHeader (.string (buildWebhookHeaderValue timestamp nonce signature)) =
      .ok ⟨timestamp,nonce,signature⟩ := by
  obtain ⟨units,short⟩ := utf16Length_built safe.2 plain hex
  have chars := build_toList timestamp nonce signature
  have first := segment_timestamp timestamp
  have last := segment_signature hex
  by_cases none_ : nonce = ""
  · rw [if_neg (by simp [none_])] at chars
    rw [parse_two units short first last chars]
    exact checkParts_built safe plain hex (by simp [none_])
  · rw [if_pos none_] at chars
    rw [parse_three units short first (segment_nonce plain none_) last chars]
    exact checkParts_built safe plain hex (by simp)

theorem startsWith_cut {word : List Char} {start : String} (starts : startsWith word start = true) :
    ∃ rest, word = start.toList ++ rest := by
  obtain ⟨rest,same⟩ := List.isPrefixOf_iff_prefix.mp starts
  exact ⟨rest,same.symm⟩

theorem read_cases {parts next : Parts} {part : List Char} (read : parts.read part = .ok next) :
    (∃ value, trim part = 't' :: '=' :: value ∧ parts.timestampPart = none ∧
      next = { parts with timestampPart := some ('t' :: '=' :: value) }) ∨
    (∃ value, trim part = 'n' :: '=' :: value ∧ parts.noncePart = none ∧
      next = { parts with noncePart := some ('n' :: '=' :: value) }) ∨
    (∃ value, trim part = 'v' :: '1' :: '=' :: value ∧ parts.signaturePart = none ∧
      next = { parts with signaturePart := some ('v' :: '1' :: '=' :: value) }) := by
  unfold Parts.read at read
  generalize trim part = trimmed at read ⊢
  simp only at read
  split_ifs at read with empty timestamp held nonce held signature held
  · obtain ⟨value,rfl⟩ := startsWith_cut timestamp
    exact .inl ⟨value,rfl,by simpa using held,(Except.ok.inj read).symm⟩
  · obtain ⟨value,rfl⟩ := startsWith_cut nonce
    exact .inr (.inl ⟨value,rfl,by simpa using held,(Except.ok.inj read).symm⟩)
  · obtain ⟨value,rfl⟩ := startsWith_cut signature
    exact .inr (.inr ⟨value,rfl,by simpa using held,(Except.ok.inj read).symm⟩)

theorem read_trim (parts : Parts) (part : List Char) : parts.read (trim part) = parts.read part := by
  simp only [Parts.read,trim_trim]

variable {parsed : ParsedWebhookHeader}

theorem checkParts_ok {found : Parts} (checked : checkParts found = .ok parsed) :
    ∃ timestampPart, found.timestampPart = some timestampPart ∧
      isDigits (String.ofList (timestampPart.drop 2)) = true ∧
      parsed.timestamp = decimal (String.ofList (timestampPart.drop 2)) ∧
      0 < parsed.timestamp ∧ parsed.timestamp ≤ MAX_SAFE_INTEGER ∧
      parsed.nonce = String.ofList ((found.noncePart.map (List.drop 2)).getD []) := by
  unfold checkParts at checked
  split at checked
  next timestampPart signaturePart timestampIs signatureIs =>
    simp only at checked
    split_ifs at checked with digits range hex length control
    injection checked with same
    subst same
    refine ⟨timestampPart,timestampIs,by simpa using digits,rfl,?_,?_,rfl⟩
    · show 0 < decimal _
      omega
    · show decimal _ ≤ _
      omega
  next => cases checked

/-- A text that is parsed is short, its segments can be read and their values pass the checks. -/
theorem parse_ok {text : String} (parses : parseWebhookSignatureHeader (.string text) = .ok parsed) :
    utf16Length text ≤ MAX_WEBHOOK_HEADER_LENGTH ∧
      ∃ found, (text.toList.splitOn ',').foldlM Parts.read ⟨none,none,none⟩ = .ok found ∧ checkParts found = .ok parsed := by
  simp only [parseWebhookSignatureHeader] at parses
  split_ifs at parses with empty long control fields count
  refine ⟨Nat.le_of_not_lt long,?_⟩
  cases read : (text.toList.splitOn ',').foldlM Parts.read ⟨none,none,none⟩ with
  | error reason =>
    rw [read] at parses
    cases parses
  | ok found =>
    rw [read] at parses
    exact ⟨found,rfl,parses⟩

end StellarAlerts.WebhookHeader
