import StellarAlerts.Numbers
import StellarAlerts.UnitTexts

/-!
What is left of the personal data in a payload that is stored or shown. `sanitizePayload`
walks through arrays and objects and masks the primitive values it finds directly under
a sensitive key. What stands deeper below such a key, in an array or under a further
key, is masked only if its own key is sensitive too.
-/
namespace StellarAlerts.PayloadPrivacy
open Numbers (Number)
open UnitTexts

/-- Lower case, and the texts of numbers. -/
structure Texts where
  toLowerCase : Text → Text
  ofNumber : Number → Text

inductive Scalar where
  | null
  | bool (b : Bool)
  | number (n : Number)
  | text (s : Text)
deriving DecidableEq

inductive Value where
  | scalar (v : Scalar)
  | array (items : List Value)
  | object (members : List (Text × Value))

/-! ### Masks -/

def maskEmail (email : Text) : Text :=
  if email = [] ∨ '@'.toNat ∉ email then lit "***@***"
  else
    let parts := email.splitOn '@'.toNat
    let localPart := parts.getD 0 []
    let domain := parts.getD 1 []
    if localPart.length ≤ 2 then [localPart.headD '*'.toNat] ++ lit "***@" ++ domain
    else localPart.take 2 ++ lit "***@" ++ domain

def maskPhone (phone : Text) : Text :=
  if phone = [] ∨ phone.length ≤ 4 then lit "***"
  else
    let start := if (lit "+").isPrefixOf phone then phone.take 2 else []
    start ++ lit "***" ++ lastUnits 4 phone

def maskTelegramChatId (chatId : Text) : Text :=
  if chatId = [] ∨ chatId.length ≤ 4 then lit "tg:***" else lit "tg:***" ++ lastUnits 4 chatId

/-- The beginning of an address of four parts, or of three groups and more. -/
def maskIpAddress (ip : Text) : Text :=
  let parts := ip.splitOn '.'.toNat
  let groups := ip.splitOn ':'.toNat
  if ip = [] then lit "xxx"
  else if '.'.toNat ∈ ip ∧ parts.length = 4 then
    parts.getD 0 [] ++ lit "." ++ parts.getD 1 [] ++ lit "." ++ parts.getD 2 [] ++ lit ".xxx"
  else if ':'.toNat ∈ ip ∧ 3 ≤ groups.length then
    (lit ":").intercalate (groups.take 3) ++ lit ":xxxx:xxxx:xxxx:xxxx:xxxx"
  else lit "xxx"

section Sanitizer
variable (t : Texts)

def maskDestination (destination channel : Text) : Text :=
  let ch := t.toLowerCase channel
  if destination = [] then []
  else if ch = lit "password" ∨ ch = lit "token" ∨ ch = lit "secret" ∨ ch = lit "authorization" then lit "***"
  else if ch = lit "email" ∨ '@'.toNat ∈ destination then maskEmail destination
  else if ch = lit "telegram" ∨ shows ch (lit "telegram") then maskTelegramChatId destination
  else if ch = lit "whatsapp" ∨ shows ch (lit "phone") ∨ (lit "+").isPrefixOf destination then maskPhone destination
  else if destination.length ≤ 6 then lit "***"
  else destination.take 3 ++ lit "***" ++ lastUnits 3 destination

def SENSITIVE_PAYLOAD_KEYS : List Text :=
  ["email","phone","phonenumber","whatsappnumber","telegramchatid","chatid","recipient","ipaddress","ip","token",
    "secret","authorization","password"].map lit

/-- `String(v)`. -/
def Scalar.toText : Scalar → Text
  | .null => lit "null"
  | .bool b => lit (if b then "true" else "false")
  | .number n => t.ofNumber n
  | .text s => s

@[simp] theorem toText_text (s : Text) : (Scalar.text s).toText t = s := rfl

def sanitizeField (key : Text) (value : Scalar) : Scalar :=
  let lowerKey := t.toLowerCase key
  if lowerKey = lit "ipaddress" ∨ lowerKey = lit "ip" then .text (maskIpAddress (value.toText t))
  else if lowerKey ∈ SENSITIVE_PAYLOAD_KEYS then
    match value with
    | .text s => .text (maskDestination t s lowerKey)
    | _ => .text (lit "[REDACTED]")
  else value

/-- The key that sets the prototype of an object and no member of it. -/
def protoKey : Text := lit "__proto__"

/-- `sanitized[key] = value`. -/
def assign (sanitized : List (Text × Value)) (key : Text) (value : Value) : List (Text × Value) :=
  if key = protoKey then sanitized
  else if key ∈ sanitized.map Prod.fst then sanitized.map fun member => if member.1 = key then (key,value) else member
  else sanitized ++ [(key,value)]

mutual

def sanitizePayload : Value → Value
  | .scalar v => .scalar v
  | .array items => .array (sanitizeItems items)
  | .object members => .object (sanitizeMembers members [])

/-- `payload.map(item => sanitizePayload(item))`. -/
def sanitizeItems : List Value → List Value
  | [] => []
  | item :: rest => sanitizePayload item :: sanitizeItems rest

/-- The members of the payload in turn. -/
def sanitizeMembers : List (Text × Value) → List (Text × Value) → List (Text × Value)
  | [],sanitized => sanitized
  | (key,.scalar v) :: rest,sanitized => sanitizeMembers rest (assign sanitized key (.scalar (sanitizeField t key v)))
  | (key,value) :: rest,sanitized => sanitizeMembers rest (assign sanitized key (sanitizePayload value))

end

end Sanitizer

/-! ### Places in a payload -/

inductive Step where
  | index (i : Nat)
  | key (name : Text)
deriving DecidableEq

def child : Value → Step → Option Value
  | .array items,.index i => items[i]?
  | .object members,.key name => (members.find? fun member => member.1 = name).map Prod.snd
  | _,_ => none

def valueAt (v : Value) : List Step → Option Value
  | [] => some v
  | step :: path => (child v step).bind (valueAt · path)

/-- No object inside has two members of one name. -/
def Distinct (v : Value) : Prop :=
  ∀ path members, valueAt v path = some (.object members) → (members.map Prod.fst).Nodup

/-- A payload as a program holds it. -/
structure Payload where
  value : Value
  distinct : Distinct value

theorem distinct_child {v part : Value} {step : Step} (distinct : Distinct v) (found : child v step = some part) :
    Distinct part := by
  intro path members below
  refine distinct (step :: path) members ?_
  rw [valueAt,found]
  exact below

theorem valueAt_append (v : Value) (path more : List Step) :
    valueAt v (path ++ more) = (valueAt v path).bind (valueAt · more) := by
  induction path generalizing v with
  | nil => rfl
  | cons step path ih =>
    rw [List.cons_append,valueAt,valueAt,Option.bind_assoc]
    exact Option.bind_congr fun part _ => ih part

section Places
variable (t : Texts)

def sensitiveStep : Step → Bool
  | .index _ => false
  | .key name => t.toLowerCase name ∈ SENSITIVE_PAYLOAD_KEYS

def belowSensitive (path : List Step) : Bool := path.any (sensitiveStep t)

def sanitizedUnder : Option Step → Value → Value
  | some (.key name),.scalar v => .scalar (sanitizeField t name v)
  | _,v => sanitizePayload t v

/-! ### What is where in the sanitised payload -/

theorem sanitizeItems_eq (items : List Value) : sanitizeItems t items = items.map (sanitizePayload t) := by
  induction items with
  | nil => rfl
  | cons item rest ih => rw [sanitizeItems,ih,List.map_cons]

variable {sanitized : List (Text × Value)}

theorem assign_fresh {key : Text} (value : Value) (named : key ≠ protoKey) (free : key ∉ sanitized.map Prod.fst) :
    assign sanitized key value = sanitized ++ [(key,value)] := by
  rw [assign,if_neg named,if_neg free]

theorem sanitizeMembers_cons (key : Text) (value : Value) (rest sanitized : List (Text × Value)) :
    sanitizeMembers t ((key,value) :: rest) sanitized =
      sanitizeMembers t rest (assign sanitized key (sanitizedUnder t (some (.key key)) value)) := by
  cases value <;> rw [sanitizeMembers,sanitizedUnder] <;> simp

theorem sanitizeMembers_eq {members : List (Text × Value)} (distinct : (members.map Prod.fst).Nodup)
    (free : ∀ member ∈ members, member.1 ∉ sanitized.map Prod.fst) :
    sanitizeMembers t members sanitized =
      sanitized ++ (members.filter fun member => member.1 ≠ protoKey).map fun member =>
        (member.1,sanitizedUnder t (some (.key member.1)) member.2) := by
  induction members generalizing sanitized with
  | nil => simp [sanitizeMembers]
  | cons member rest ih =>
    obtain ⟨key,value⟩ := member
    rw [List.map_cons,List.nodup_cons] at distinct
    rw [sanitizeMembers_cons]
    by_cases proto : key = protoKey
    · rw [assign,if_pos proto,ih distinct.2 fun member listed => free member (by simp [listed])]
      simp [proto]
    · have own := free (key,value) (by simp)
      rw [assign_fresh _ proto own,ih distinct.2]
      · simp [proto]
      · intro member listed
        have other := free member (by simp [listed])
        have differs : member.1 ≠ key := fun same => distinct.1 (List.mem_map.mpr ⟨member,listed,same⟩)
        simp only [List.map_append,List.mem_append,List.map_singleton,List.mem_singleton]
        rintro (before | last)
        · exact other before
        · exact differs last

theorem sanitizePayload_object {members : List (Text × Value)} (distinct : (members.map Prod.fst).Nodup) :
    sanitizePayload t (.object members) =
      .object ((members.filter fun member => member.1 ≠ protoKey).map fun member =>
        (member.1,sanitizedUnder t (some (.key member.1)) member.2)) := by
  rw [sanitizePayload,sanitizeMembers_eq t distinct (by simp)]
  rfl

variable {v part : Value}

theorem child_sanitize {step : Step} (distinct : Distinct v) (named : step ≠ .key protoKey) (found : child v step = some part) :
    child (sanitizePayload t v) step = some (sanitizedUnder t (some step) part) := by
  cases v with
  | scalar v => cases step <;> simp [child] at found
  | array items =>
    cases step with
    | key name => simp [child] at found
    | index i =>
      simp only [child] at found
      rw [sanitizePayload,sanitizeItems_eq,child,List.getElem?_map,found]
      cases part <;> rfl
  | object members =>
    cases step with
    | index i => simp [child] at found
    | key name =>
      have keyed : name ≠ protoKey := fun same => named (by rw [same])
      rw [sanitizePayload_object t (distinct [] members rfl)]
      simp only [child,List.find?_map,Option.map_map] at found ⊢
      obtain ⟨member,first,rfl⟩ := Option.map_eq_some_iff.mp found
      have own : member.1 = name := by simpa using List.find?_some first
      have kept : (members.filter fun member => member.1 ≠ protoKey).find? (fun member => member.1 = name) = some member := by
        rw [List.find?_filter,← first]
        refine congrArg (members.find? ·) (funext fun other => ?_)
        by_cases same : other.1 = name
        · simp [same,keyed]
        · simp [same]
      have mapped : ((fun member : Text × Value => decide (member.1 = name)) ∘ fun member : Text × Value =>
          (member.1,sanitizedUnder t (some (.key member.1)) member.2)) = fun member => decide (member.1 = name) := rfl
      rw [mapped,kept]
      simp [own]

theorem sanitizedUnder_container {step : Step} (last : Option Step) (found : child v step = some part) :
    sanitizedUnder t last v = sanitizePayload t v := by
  cases v with
  | scalar v => cases step <;> simp [child] at found
  | array items => cases last with
    | none => rfl
    | some last => cases last <;> rfl
  | object members => cases last with
    | none => rfl
    | some last => cases last <;> rfl

theorem valueAt_sanitize {path : List Step} (distinct : Distinct v) (named : .key protoKey ∉ path)
    (found : valueAt v path = some part) :
    valueAt (sanitizePayload t v) path = some (sanitizedUnder t path.getLast? part) := by
  induction path generalizing v with
  | nil =>
    obtain rfl := Option.some.inj found
    rfl
  | cons step path ih =>
    rw [List.mem_cons,not_or] at named
    obtain ⟨next,first,later⟩ := Option.bind_eq_some_iff.mp found
    have moved := child_sanitize t distinct (Ne.symm named.1) first
    rw [valueAt,moved,Option.bind_some]
    cases path with
    | nil =>
      obtain rfl := Option.some.inj later
      rfl
    | cons step' path =>
      obtain ⟨inner,second,_⟩ := Option.bind_eq_some_iff.mp later
      rw [sanitizedUnder_container t (some step) second,ih (distinct_child distinct first) named.2 later,
        List.getLast?_cons_cons]

theorem no_proto {path : List Step}
    (unnamed : ∀ path members, .key protoKey ∉ path → valueAt v path = some (.object members) → protoKey ∉ members.map Prod.fst)
    (found : valueAt v path = some part) : .key protoKey ∉ path := by
  intro proto
  obtain ⟨before,after,rfl,first⟩ := List.eq_append_cons_of_mem proto
  rw [valueAt_append] at found
  obtain ⟨holder,held,later⟩ := Option.bind_eq_some_iff.mp found
  obtain ⟨inner,stepped,_⟩ := Option.bind_eq_some_iff.mp later
  cases holder with
  | scalar v => cases stepped
  | array items => cases stepped
  | object members =>
    obtain ⟨member,listed,_⟩ := Option.map_eq_some_iff.mp stepped
    have own : member.1 = protoKey := by simpa using List.find?_some listed
    exact unnamed before members first held (own ▸ List.mem_map_of_mem (f := Prod.fst) (List.mem_of_find?_eq_some listed))

/-! ### What the sanitised payload shows -/

/-- A value that has a text appears in what stands at its place. -/
def Shown (v w : Scalar) : Prop := v.toText t ≠ [] ∧ shows (w.toText t) (v.toText t) = true

/-- What sanitising is for. -/
structure Sanitizes (payload sanitized : Value) : Prop where
  masks : ∀ path v, valueAt payload path = some (.scalar v) → belowSensitive t path = true →
    ∃ w, valueAt sanitized path = some (.scalar w) ∧ ¬ Shown t v w
  keeps : ∀ path v, valueAt payload path = some (.scalar v) → belowSensitive t path = false →
    valueAt sanitized path = some (.scalar v)
  lengths : ∀ path items, valueAt payload path = some (.array items) →
    ∃ items', valueAt sanitized path = some (.array items') ∧ items'.length = items.length
  names : ∀ path members, valueAt payload path = some (.object members) →
    ∃ members', valueAt sanitized path = some (.object members') ∧ members'.map Prod.fst = members.map Prod.fst

/-- The mask of a sensitive key does not show the value. -/
def hides (name : Text) (v : Scalar) : Bool :=
  let lowerKey := t.toLowerCase name
  if lowerKey = lit "ipaddress" ∨ lowerKey = lit "ip" then !shows (maskIpAddress (v.toText t)) (v.toText t)
  else
    match v with
    | .text s => !shows (maskDestination t s lowerKey) s
    | v => !shows (lit "[REDACTED]") (v.toText t)

/-- No object sets a prototype, and every value with a text below a sensitive key stands
directly under one whose mask hides it. -/
structure Sanitizable (payload : Value) : Prop where
  named : ∀ path members, valueAt payload path = some (.object members) → protoKey ∉ members.map Prod.fst
  direct : ∀ path v, valueAt payload path = some (.scalar v) → belowSensitive t path = true → v.toText t ≠ [] →
    ∃ name, path.getLast? = some (.key name) ∧ t.toLowerCase name ∈ SENSITIVE_PAYLOAD_KEYS ∧ hides t name v = true

theorem sanitizeField_other {name : Text} (open_ : t.toLowerCase name ∉ SENSITIVE_PAYLOAD_KEYS) (v : Scalar) :
    sanitizeField t name v = v := by
  have noAddress : ¬ (t.toLowerCase name = lit "ipaddress" ∨ t.toLowerCase name = lit "ip") := by
    rintro (same | same) <;> exact open_ (by rw [same]; simp [SENSITIVE_PAYLOAD_KEYS])
  simp only [sanitizeField]
  rw [if_neg noAddress,if_neg open_]

theorem hides_iff {name : Text} (sensitive : t.toLowerCase name ∈ SENSITIVE_PAYLOAD_KEYS) {v : Scalar}
    (some_ : v.toText t ≠ []) : hides t name v = true ↔ ¬ Shown t v (sanitizeField t name v) := by
  rw [Shown,not_and]
  simp only [hides,sanitizeField]
  by_cases address : t.toLowerCase name = lit "ipaddress" ∨ t.toLowerCase name = lit "ip"
  · rw [if_pos address,if_pos address]
    simp [some_]
  · rw [if_neg address,if_neg address,if_pos sensitive]
    cases v with
    | text s =>
      have filled : s ≠ [] := some_
      simp [filled]
    | null => simp [some_]
    | bool b => simp [some_]
    | number n => simp [some_]

section Laws
variable {t : Texts} {payload : Value}

variable {path : List Step}

theorem hidden_iff (distinct : Distinct payload) {v : Scalar} (named : .key protoKey ∉ path)
    (found : valueAt payload path = some (.scalar v)) (below : belowSensitive t path = true) :
    (∃ w, valueAt (sanitizePayload t payload) path = some (.scalar w) ∧ ¬ Shown t v w) ↔
      (v.toText t ≠ [] → ∃ name, path.getLast? = some (.key name) ∧ t.toLowerCase name ∈ SENSITIVE_PAYLOAD_KEYS ∧
        hides t name v = true) := by
  rw [valueAt_sanitize t distinct named found]
  by_cases empty : v.toText t = []
  · have bare : ∀ w, ¬ Shown t v w := fun w shown => shown.1 empty
    refine iff_of_true ?_ (fun some_ => absurd empty some_)
    cases path.getLast? with
    | none => exact ⟨v,rfl,bare v⟩
    | some last => cases last with
      | index i => exact ⟨v,rfl,bare v⟩
      | key name => exact ⟨_,rfl,bare _⟩
  · have self : Shown t v v := ⟨empty,shows_self _⟩
    cases last : path.getLast? with
    | none => simp [List.getLast?_eq_none_iff.mp last,belowSensitive] at below
    | some step => cases step with
      | index i => simp [sanitizedUnder,sanitizePayload,self,empty]
      | key name =>
        by_cases sensitive : t.toLowerCase name ∈ SENSITIVE_PAYLOAD_KEYS
        · simp [sanitizedUnder,sensitive,empty,hides_iff t sensitive empty]
        · simp [sanitizedUnder,sanitizeField_other t sensitive,self,empty,sensitive]

theorem kept (distinct : Distinct payload) {v : Scalar} (named : .key protoKey ∉ path)
    (found : valueAt payload path = some (.scalar v)) (open_ : belowSensitive t path = false) :
    valueAt (sanitizePayload t payload) path = some (.scalar v) := by
  rw [valueAt_sanitize t distinct named found]
  cases last : path.getLast? with
  | none => rfl
  | some step => cases step with
    | index i => rfl
    | key name =>
      have plain := List.any_eq_false.mp open_ _ (List.mem_of_getLast? last)
      rw [sanitizedUnder,sanitizeField_other t (by simpa [sensitiveStep] using plain)]

theorem names_iff (distinct : Distinct payload) {members : List (Text × Value)} (named : .key protoKey ∉ path)
    (found : valueAt payload path = some (.object members)) :
    (∃ members', valueAt (sanitizePayload t payload) path = some (.object members') ∧
      members'.map Prod.fst = members.map Prod.fst) ↔ protoKey ∉ members.map Prod.fst := by
  have whole : sanitizedUnder t path.getLast? (.object members) = sanitizePayload t (.object members) := by
    cases path.getLast? with
    | none => rfl
    | some step => cases step <;> rfl
  rw [valueAt_sanitize t distinct named found,whole,sanitizePayload_object t (distinct path members found)]
  have names : ∀ rest : List (Text × Value), (rest.filter fun member => member.1 ≠ protoKey).map Prod.fst =
      (rest.map Prod.fst).filter (· ≠ protoKey) := by
    intro rest
    rw [List.filter_map]
    rfl
  simp only [Option.some.injEq,Value.object.injEq,exists_eq_left',List.map_map]
  have firsts : (Prod.fst ∘ fun member : Text × Value => (member.1,sanitizedUnder t (some (.key member.1)) member.2)) =
      Prod.fst := rfl
  rw [firsts,names,List.filter_eq_self]
  constructor
  · intro others proto
    simpa using others _ proto
  · intro proto name listed
    simpa using fun same : name = protoKey => proto (same ▸ listed)

end Laws

/-- A payload is sanitised exactly if no object in it sets a prototype and every value below a
sensitive key stands directly under one whose mask hides it. -/
theorem sanitizePayload_iff (payload : Payload) :
    Sanitizes t payload.value (sanitizePayload t payload.value) ↔ Sanitizable t payload.value := by
  have distinct := payload.distinct
  constructor
  · intro sanitizes
    have unnamed : ∀ path members, .key protoKey ∉ path → valueAt payload.value path = some (.object members) →
        protoKey ∉ members.map Prod.fst := fun path members named found =>
      (names_iff distinct named found).mp (sanitizes.names path members found)
    refine ⟨fun path members found => unnamed path members (no_proto unnamed found) found,?_⟩
    intro path v found below
    exact (hidden_iff distinct (no_proto unnamed found) found below).mp (sanitizes.masks path v found below)
  · intro sanitizable
    have way : ∀ {path part}, valueAt payload.value path = some part → .key protoKey ∉ path := fun found =>
      no_proto (fun path members _ => sanitizable.named path members) found
    refine ⟨?_,?_,?_,?_⟩
    · intro path v found below
      exact (hidden_iff distinct (way found) found below).mpr (sanitizable.direct path v found below)
    · intro path v found open_
      exact kept distinct (way found) found open_
    · intro path items found
      have whole : sanitizedUnder t path.getLast? (.array items) = .array (items.map (sanitizePayload t)) := by
        rw [← sanitizeItems_eq]
        cases path.getLast? with
        | none => rw [sanitizedUnder,sanitizePayload]; simp
        | some step => cases step <;> rw [sanitizedUnder,sanitizePayload] <;> simp
      exact ⟨_,(valueAt_sanitize t distinct (way found) found).trans (congrArg some whole),List.length_map _⟩
    · intro path members found
      exact (names_iff distinct (way found) found).mpr (sanitizable.named path members found)

end Places

/-! ### A list under a sensitive key -/

theorem distinct_scalar (v : Scalar) : Distinct (.scalar v) := by
  intro path members found
  cases path with
  | nil => cases found
  | cons step path => cases step <;> cases found

theorem distinct_array {items : List Value} (parts : ∀ item ∈ items, Distinct item) : Distinct (.array items) := by
  intro path members found
  cases path with
  | nil => cases found
  | cons step path =>
    obtain ⟨item,stepped,later⟩ := Option.bind_eq_some_iff.mp found
    cases step with
    | key name => cases stepped
    | index i => exact parts item (List.mem_of_getElem? stepped) path members later

theorem distinct_object {members : List (Text × Value)} (unique : (members.map Prod.fst).Nodup)
    (parts : ∀ member ∈ members, Distinct member.2) : Distinct (.object members) := by
  intro path members' found
  cases path with
  | nil =>
    cases found
    exact unique
  | cons step path =>
    obtain ⟨part,stepped,later⟩ := Option.bind_eq_some_iff.mp found
    cases step with
    | index i => cases stepped
    | key name =>
      obtain ⟨member,first,rfl⟩ := Option.map_eq_some_iff.mp stepped
      exact parts member (List.mem_of_find?_eq_some first) path members' later

/-- Lower case among the letters of ASCII. -/
def asciiTexts : Texts where
  toLowerCase := List.map fun unit => if 'A'.toNat ≤ unit ∧ unit ≤ 'Z'.toNat then unit + 32 else unit
  ofNumber _ := lit "0"

/-- `{"token": ["abc"]}`. -/
def tokenList : Payload where
  value := .object [(lit "token",.array [.scalar (.text (lit "abc"))])]
  distinct := by
    refine distinct_object (by simp) fun member listed => ?_
    obtain rfl := List.mem_singleton.mp listed
    refine distinct_array fun item inside => ?_
    obtain rfl := List.mem_singleton.mp inside
    exact distinct_scalar _

/-- A token in a list stays as it is. -/
theorem tokenList_shown : ¬ Sanitizes asciiTexts tokenList.value (sanitizePayload asciiTexts tokenList.value) := by
  intro sanitizes
  obtain ⟨w,placed,hidden⟩ := sanitizes.masks [.key (lit "token"),.index 0] (.text (lit "abc")) rfl (by decide)
  have same : valueAt (sanitizePayload asciiTexts tokenList.value) [.key (lit "token"),.index 0] =
      some (.scalar (.text (lit "abc"))) := rfl
  obtain rfl : Scalar.text (lit "abc") = w := by simpa using same.symm.trans placed
  exact hidden ⟨by decide,shows_self _⟩

end StellarAlerts.PayloadPrivacy
