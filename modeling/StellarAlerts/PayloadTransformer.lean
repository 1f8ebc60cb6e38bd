import StellarAlerts.JsonTexts

/-!
The templates of webhook payloads, as the built-in interpreter evaluates them:
conditionals first, then what stands between double braces.
-/
namespace StellarAlerts.PayloadTransformer
open IntegerText (isStrWhiteSpace trim)
open JsonTexts Numbers
open Utf16Text (includes)

/-- What an expression evaluates to. -/
inductive JsValue where
  | undefined
  | function
  | json (v : Json)

/-- What the runtime does with texts and values. The text of a value may throw. -/
structure Runtime where
  toUpperCase : String → String
  toLowerCase : String → String
  toNumber : String → Number
  text : JsValue → Option String
  stringify : Json → String
  split : String → String → List String
  /-- whether an array or object inherits a method of the name -/
  inherits : Json → String → Bool

def trimmed (text : String) : String := String.ofList (trim text.toList)

/-- `text.replace(/.../g, ...)`: from left to right, and on behind what was found. Nothing found is empty. -/
def replaceAll {M : Type} (find : List Char → Option (M × List Char)) (out : M → Option (List Char)) :
    List Char → Option (List Char)
  | [] => some []
  | c :: rest =>
    match find (c :: rest) with
    | some (found,behind) =>
      if behind.length ≤ rest.length then do
        let text ← out found
        let later ← replaceAll find out behind
        return text ++ later
      else (replaceAll find out rest).map (c :: ·)
    | none => (replaceAll find out rest).map (c :: ·)
termination_by text => text.length
decreasing_by
  all_goals simp only [List.length_cons]
  all_goals omega

/-- Where a dot of an expression does not go on. -/
def isLineTerminator (c : Char) : Bool := [0xA,0xD,0x2028,0x2029].contains c.toNat

/-- `\s*` and then a word. -/
def blanksThen (word text : List Char) : Option (List Char) := (text.dropWhile isStrWhiteSpace).dropPrefix? word

/-- `(.*?)\s*` and then a word: as little as possible is captured. -/
def lazily (word : List Char) : List Char → Option (List Char × List Char)
  | [] => (blanksThen word []).map fun behind => ([],behind)
  | c :: rest =>
    match blanksThen word (c :: rest) with
    | some behind => some ([],behind)
    | none => if isLineTerminator c then none else (lazily word rest).map fun found => (c :: found.1,found.2)

/-- `\s*(.*?)\s*` and then a word; if need be, blanks are left to what is captured. -/
def captured (word : List Char) (text : List Char) : Option (List Char × List Char) :=
  let blanks := (text.takeWhile isStrWhiteSpace).length
  (List.range (blanks + 1)).reverse.findSome? fun count => lazily word (text.drop count)

/-- `\{\{\s*(.*?)\s*\}\}`. -/
def findInterpolation : List Char → Option (List Char × List Char)
  | '{' :: '{' :: rest => captured ['}','}'] rest
  | _ => none

/-- `\{%\s*word\s*%\}`. -/
def findTag (word : List Char) : List Char → Option (List Char)
  | '{' :: '%' :: rest => (blanksThen word rest).bind (blanksThen ['%','}'])
  | _ => none

/-- `([\s\S]*?)` up to the end of the conditional. -/
def findEnd : List Char → Option (List Char × List Char)
  | [] => none
  | c :: rest =>
    match findTag "endif".toList (c :: rest) with
    | some behind => some ([],behind)
    | none => (findEnd rest).map fun found => (c :: found.1,found.2)

def findBlocks : List Char → Option ((List Char × Option (List Char)) × List Char)
  | [] => none
  | c :: rest =>
    match (findTag "else".toList (c :: rest)).bind findEnd with
    | some (falsy,behind) => some (([],some falsy),behind)
    | none =>
      match findTag "endif".toList (c :: rest) with
      | some behind => some (([],none),behind)
      | none => (findBlocks rest).map fun found => ((c :: found.1.1,found.1.2),found.2)

structure Conditional where
  condition : List Char
  truthy : List Char
  falsy : Option (List Char)

/-- `(.*?)\s*%\}` and then the blocks. -/
def findCondition : List Char → Option (Conditional × List Char)
  | [] => none
  | c :: rest =>
    match (blanksThen ['%','}'] (c :: rest)).bind findBlocks with
    | some ((truthy,falsy),behind) => some (⟨[],truthy,falsy⟩,behind)
    | none =>
      if isLineTerminator c then none
      else (findCondition rest).map fun found => ({ found.1 with condition := c :: found.1.condition },found.2)

/-- `\{%\s*if\s+(.*?)\s*%\}` and then the blocks; of the blanks behind the word one at least is not captured. -/
def findConditional : List Char → Option (Conditional × List Char)
  | '{' :: '%' :: rest =>
    (blanksThen ['i','f'] rest).bind fun behind =>
      let blanks := (behind.takeWhile isStrWhiteSpace).length
      (List.range' 1 blanks).reverse.findSome? fun count => findCondition (behind.drop count)
  | _ => none

section Expressions
variable (r : Runtime) (context : List (String × Json))

/-- `/\[(\d+)\]/`. -/
def findIndex : List Char → Option (List Char × List Char)
  | '[' :: rest =>
    match rest.dropWhile Char.isDigit with
    | ']' :: behind => if rest.takeWhile Char.isDigit = [] then none else some (rest.takeWhile Char.isDigit,behind)
    | _ => none
  | _ => none

/-- `current[seg]`. -/
def property (current : Json) (seg : String) : JsValue :=
  let inherited := if r.inherits current seg then .function else .undefined
  match current with
  | .object members =>
    match lookup members seg with
    | some v => .json v
    | none => inherited
  | .array items =>
    if seg = "length" then .json (.number (.finite items.length))
    else
      match (List.range items.length).find? fun i => toString i = seg with
      | some i => .json (items.getD i .null)
      | none => inherited
  | _ => .undefined

def step (current : JsValue) (seg : String) : JsValue :=
  match current with
  | .json v => property r v seg
  | _ => .undefined

def resolvePath (path : String) : JsValue :=
  if path = "" then .undefined
  else
    let clean := trim path.toList
    let clean := match clean with
      | '$' :: '.' :: rest => rest
      | '$' :: rest => rest
      | clean => clean
    if includes (String.ofList clean) "__proto__" || includes (String.ofList clean) "constructor" ||
      includes (String.ofList clean) "prototype" then .undefined
    else
      let clean := (replaceAll findIndex (fun digits => some ('.' :: digits)) clean).getD clean
      let segments := (clean.splitOn '.').filter (· ≠ [])
      (segments.map String.ofList).foldl (step r) (.json (.object context))

/-- A literal in quotes of a kind. -/
def quotedBy (quote : Char) (token : String) : Bool := token.toList.head? = some quote && token.toList.getLast? = some quote

def resolveLiteralOrVar (token : String) : JsValue :=
  if quotedBy '"' token || quotedBy '\'' token then .json (.string (String.ofList (token.toList.drop 1).dropLast))
  else if token = "true" then .json (.bool true)
  else if token = "false" then .json (.bool false)
  else if token = "null" then .json .null
  else if r.toNumber token ≠ .nan then .json (.number (r.toNumber token))
  else resolvePath r context token

/-- `String(value ?? '')`. -/
def textOr (other : String) : JsValue → Option String
  | .undefined => some other
  | .json .null => some other
  | value => r.text value

def applyFilter (value : JsValue) (filterStr : String) : Option JsValue :=
  let filterName := r.toLowerCase (trimmed (String.ofList (filterStr.toList.takeWhile (· ≠ ':'))))
  let rawArg := trimmed (String.ofList ((filterStr.toList.dropWhile (· ≠ ':')).drop 1))
  let arg := resolveLiteralOrVar r context rawArg
  match filterName with
  | "upcase" | "uppercase" =>
    match value with
    | .json (.string s) => some (.json (.string (r.toUpperCase s)))
    | value => some value
  | "downcase" | "lowercase" =>
    match value with
    | .json (.string s) => some (.json (.string (r.toLowerCase s)))
    | value => some value
  | "append" => do return .json (.string ((← textOr r "" value) ++ (← textOr r "" arg)))
  | "prepend" => do
    let last ← textOr r "" arg
    let first ← textOr r "" value
    return .json (.string (last ++ first))
  | "default" =>
    match value with
    | .undefined => some arg
    | .json .null => some arg
    | .json (.string "") => some arg
    | value => some value
  | "json" =>
    match value with
    | .json v => some (.json (.string (r.stringify v)))
    | _ => some .undefined
  | "split" =>
    match value with
    | .json (.string s) => do return .json (.array ((r.split s (← textOr r "," arg)).map .string))
    | _ => some (.json (.array []))
  | _ => some value

def evaluateLiquidExpression (expression : String) : Option JsValue :=
  let parts := (expression.toList.splitOn '|').map fun part => String.ofList (trim part)
  parts.tail.foldlM (applyFilter r context) (resolvePath r context (parts.headD ""))

/-- The first two parts of what is compared. -/
def compared (trimmed operator : String) : Option (String × String) := do
  let leftVal ← evaluateLiquidExpression r context (PayloadTransformer.trimmed ((r.split trimmed operator).getD 0 ""))
  let rightVal := resolveLiteralOrVar r context (PayloadTransformer.trimmed ((r.split trimmed operator).getD 1 ""))
  return (← r.text leftVal,← r.text rightVal)

/-- `Boolean(value)`. -/
def truthy : JsValue → Bool
  | .undefined => false
  | .function => true
  | .json .null => false
  | .json (.bool b) => b
  | .json (.number .nan) => false
  | .json (.number n) => n ≠ .finite 0
  | .json (.string s) => s ≠ ""
  | .json (.array _) => true
  | .json (.object _) => true

def evaluateCondition (condExpr : String) : Option Bool :=
  let trimmed := PayloadTransformer.trimmed condExpr
  if includes trimmed "==" then (compared r context trimmed "==").map fun sides => sides.1 = sides.2
  else if includes trimmed "!=" then (compared r context trimmed "!=").map fun sides => sides.1 ≠ sides.2
  else (evaluateLiquidExpression r context trimmed).map truthy

def interpolated : JsValue → Option String
  | .undefined => some "null"
  | .json .null => some "null"
  | .json (.string s) => some (String.ofList ((quote s).drop 1).dropLast)
  | .json (.array items) => some (r.stringify (.array items))
  | .json (.object members) => some (r.stringify (.object members))
  | value => r.text value

/-- None where an expression throws. -/
def evaluateBuiltinLiquid (template : String) : Option String := do
  let result ← replaceAll findConditional (fun found => do
    let condVal ← evaluateCondition r context (String.ofList found.condition)
    return if condVal then found.truthy else found.falsy.getD []) template.toList
  let result ← replaceAll findInterpolation (fun found => do
    let val ← evaluateLiquidExpression r context (String.ofList found)
    return (← interpolated r val).toList) result
  return String.ofList result

end Expressions

end StellarAlerts.PayloadTransformer
