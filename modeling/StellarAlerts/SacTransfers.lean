import StellarAlerts.Numbers
import StellarAlerts.TokenAmounts

/-!
Transfers of Stellar asset contracts, as the events of the network report them. The two
words of an amount go through `>>>`, which keeps 32 bits of a number and takes no bigint
at all; so it is read exactly where both words fit 32 bits and are given as numbers or
texts (`transfers_exact`).
-/
namespace StellarAlerts.SacTransfers
open IntegerText Numbers TokenAmounts

/-- Values as the code meets them. -/
inductive Value where
  | undefined
  | null
  | bool (b : Bool)
  | bigint (n : Int)
  | number (x : Number)
  | text (s : String)
  | array (items : List Value)
  | object (members : List (String × Value))

/-- `v.key`, or `v?.key` where `v` is null or undefined. -/
def Value.member (v : Value) (key : String) : Value :=
  match v with
  | .object members => (members.lookup key).getD .undefined
  | _ => .undefined

/-- `a ?? b`. -/
def Value.orElse : Value → Value → Value
  | .undefined, b => b
  | .null, b => b
  | a, _ => a

def Value.truthy : Value → Bool
  | .undefined | .null => false
  | .bool b => b
  | .bigint n => n ≠ 0
  | .number (.finite q) => q ≠ 0
  | .number x => x ≠ .nan
  | .text s => s ≠ ""
  | .array _ | .object _ => true

/-- The SDK's reading of ScVals, none where it throws, and what texts and objects are as numbers unless they are integer literals. -/
structure Platform where
  scValToNative : Value → Option Value
  otherNumber : Value → Number

def truncate (q : ℚ) : Int := if q < 0 then -⌊-q⌋ else ⌊q⌋

/-- The nearest number of 53 bits, the even one of two. -/
def roundToDouble (n : Nat) : Nat :=
  if n < 2 ^ 53 then n
  else
    let unit := 2 ^ (n.log2 - 52)
    let quotient := n / unit
    let rest := n % unit
    unit * (if unit < 2 * rest ∨ unit = 2 * rest ∧ quotient % 2 = 1 then quotient + 1 else quotient)

/-- An integer literal as a number. -/
def numberOf (n : Int) : Number :=
  let rounded := roundToDouble n.natAbs
  if 2 ^ 1024 ≤ rounded then .infinite (n < 0) else .finite (if n < 0 then -(rounded : ℚ) else rounded)

def typeError : String := "Cannot mix BigInt and other types, use explicit conversions"

def toNumber (p : Platform) : Value → Except String Number
  | .undefined => .ok .nan
  | .null => .ok (.finite 0)
  | .bool b => .ok (.finite (if b then 1 else 0))
  | .bigint _ => .error typeError
  | .number x => .ok x
  | .text s => .ok (match BigInt s with
    | some n => numberOf n
    | none => p.otherNumber (.text s))
  | v => .ok (p.otherNumber v)

def toUint32 : Number → Nat
  | .finite q => (truncate q % 2 ^ 32).toNat
  | _ => 0

/-- `v >>> 0`. -/
def unsigned (p : Platform) (v : Value) : Except String Nat := (toNumber p v).map toUint32

/-- The test `/^-?\d+$/`. -/
def isIntegerText (s : String) : Bool :=
  match s.toList with
  | '-' :: rest => isDigits (String.ofList rest)
  | _ => isDigits s

def trimmed (s : String) : String := String.ofList (trim s.toList)

/-- The number of an answer of the SDK. -/
def nativeAmount : Option Value → Option Int
  | some (.bigint n) => some n
  | some (.number (.finite q)) => some (truncate q)
  | _ => none

section Decode
variable (p : Platform)

/-- What is behind the shape of parts. -/
def decodeObject (value : Value) : Except String (Option Int) :=
  let i128 := (value.member "i128").orElse ((value.member "value").member "i128")
  let native := nativeAmount (p.scValToNative value)
  match i128 with
  | .object _ =>
    match i128.member "lo" with
    | .undefined => .ok native
    | lo => do
      let lo ← unsigned p lo
      let hi ← unsigned p (i128.member "hi")
      return some (hi * 2 ^ 64 + lo)
  | .text s => .ok (if isIntegerText s then BigInt s else native)
  | _ => .ok native

def decodeScAmount : Value → Except String (Option Int)
  | .undefined | .null | .bool _ => .ok none
  | .bigint n => .ok (some n)
  | .number (.finite q) => .ok (some (truncate q))
  | .number _ => .ok none
  | .text s => .ok (if isIntegerText (trimmed s) then BigInt (trimmed s) else none)
  | value => decodeObject p value

def isAddress (s : String) : Bool := s.startsWith "G" || s.startsWith "C"

def decodeScAddress : Value → Option String
  | .text s => if isAddress s then some s else none
  | .undefined | .null | .bool _ | .bigint _ | .number _ => none
  | scVal =>
    match p.scValToNative scVal with
    | some (.text native) => if isAddress native then some native else none
    | _ => none

def extractTopicValue : Value → Option String
  | .text s => some s
  | .object members =>
    match Value.member (.object members) "symbol" with
    | .text s => some s
    | _ => none
  | _ => none

structure SorobanRpcEvent where
  contractId : Option String
  topic : Value
  value : Value
  data : Value
  assetCode : Option String
  assetIssuer : Option String

structure SacTransfer where
  contractId : String
  assetCode : Option String
  assetIssuer : Option String
  sender : Value
  recipient : Value
  amount : String
  rawAmount : String

def SorobanRpcEvent.topics (event : SorobanRpcEvent) : List Value :=
  match event.topic with
  | .array items => items
  | _ => []

def SorobanRpcEvent.action (event : SorobanRpcEvent) : String :=
  (extractTopicValue (event.topics.headD .undefined)).getD
    (match event.topic with
      | .text s => s
      | _ => "")

def SorobanRpcEvent.rawValue (event : SorobanRpcEvent) : Value := (event.value.orElse event.data).orElse (.object [])

def SorobanRpcEvent.party (event : SorobanRpcEvent) (place : Nat) (key : String) : Value :=
  match (event.topics[place]?).bind (decodeScAddress p) with
  | some address => .text address
  | none => (event.rawValue.member key).orElse (.text "")

def SorobanRpcEvent.rawAmount (event : SorobanRpcEvent) : Except String (Option Int) := do
  let rawAmount ← decodeScAmount p (event.rawValue.member "amount")
  if rawAmount = none ∧ !(event.rawValue.member "amount").truthy ∧ !(event.rawValue.member "from").truthy ∧
      !(event.rawValue.member "to").truthy then
    decodeScAmount p event.rawValue
  else return rawAmount

def parseSacTransferEvent (event : Option SorobanRpcEvent) (decimals : Int) : Except String (Option SacTransfer) :=
  match event with
  | none => .ok none
  | some event => do
    let rawAmount ← event.rawAmount p
    match rawAmount with
    | none => return none
    | some rawAmount =>
      if event.action ≠ "transfer" then return none
      else if !(event.party p 1 "from").truthy ∧ !(event.party p 2 "to").truthy then return none
      else return some {
        contractId := event.contractId.getD ""
        assetCode := event.assetCode
        assetIssuer := event.assetIssuer
        sender := event.party p 1 "from"
        recipient := event.party p 2 "to"
        amount := formatTokenAmount (.bigint rawAmount) decimals
        rawAmount := toString rawAmount }

end Decode

/-- How a word is given. -/
inductive Form where
  | number
  | bigint
  | text
deriving DecidableEq, Repr

def Form.write : Form → Int → Value
  | .number, n => .number (.finite n)
  | .bigint, n => .bigint n
  | .text, n => .text (toString n)

/-- `{ i128: { lo, hi } }`, the low 64 bits and the signed high ones. -/
def parts (lo hi : Form) (n : Int) : Value :=
  .object [("i128",.object [("lo",lo.write (n % 2 ^ 64)),("hi",hi.write (n / 2 ^ 64))])]

/-- The event has the amount under its name, or is nothing else. -/
def Carries (event : SorobanRpcEvent) (amount : Value) : Prop := event.rawValue.member "amount" = amount ∨ event.rawValue = amount

/-- The amount is decoded, and reported of every transfer that carries it and names a party. -/
structure Reads (p : Platform) (amount : Value) (n : Int) : Prop where
  decoded : decodeScAmount p amount = .ok (some n)
  reported : ∀ event decimals, Carries event amount → event.action = "transfer" →
    (event.party p 1 "from").truthy = true ∨ (event.party p 2 "to").truthy = true →
      ∃ transfer, parseSacTransferEvent p (some event) decimals = .ok (some transfer) ∧ transfer.rawAmount = toString n

section Words
variable {p : Platform}

theorem toUint32_lt (x : Number) : toUint32 x < 2 ^ 32 := by
  cases x with
  | finite q =>
    have below : truncate q % 2 ^ 32 < 2 ^ 32 := Int.emod_lt_of_pos _ (by decide)
    simp only [toUint32]
    omega
  | nan => exact Nat.two_pow_pos 32
  | infinite negative => exact Nat.two_pow_pos 32

theorem truncate_int (n : Int) : truncate n = n := by
  rw [truncate]
  split
  · rw [← Int.cast_neg,Int.floor_intCast,neg_neg]
  · exact Int.floor_intCast n

theorem toUint32_nat {k : Nat} (small : k < 2 ^ 32) : toUint32 (.finite k) = k := by
  have whole : truncate (k : ℚ) = k := truncate_int k
  simp only [toUint32,whole]
  omega

theorem below_pow {k a b : Nat} (small : k < 2 ^ a) (le : a ≤ b) : ¬ 2 ^ b ≤ k :=
  Nat.not_le.mpr (Nat.lt_of_lt_of_le small (Nat.pow_le_pow_right (by decide) le))

theorem numberOf_nat {k : Nat} (small : k < 2 ^ 32) : numberOf k = .finite k := by
  have same : roundToDouble k = k := by
    rw [roundToDouble,if_pos (by omega)]
  have finite : ¬ 2 ^ 1024 ≤ k := below_pow small (by decide)
  simp only [numberOf,Int.natAbs_natCast,same,if_neg finite,if_neg (Int.not_lt.mpr (Int.natCast_nonneg k))]

theorem unsigned_write {form : Form} (taken : form ≠ .bigint) (n : Int) :
    ∃ word, unsigned p (form.write n) = .ok word ∧ word < 2 ^ 32 ∧ (0 ≤ n → n < 2 ^ 32 → (word : Int) = n) := by
  cases form with
  | number =>
    refine ⟨_,rfl,toUint32_lt _,fun nonneg small => ?_⟩
    obtain ⟨k,rfl⟩ := Int.eq_ofNat_of_zero_le nonneg
    have kept := @toUint32_nat k (by omega)
    exact_mod_cast kept
  | bigint => exact absurd rfl taken
  | text =>
    refine ⟨_,rfl,toUint32_lt _,fun nonneg small => ?_⟩
    obtain ⟨k,rfl⟩ := Int.eq_ofNat_of_zero_le nonneg
    have digits := BigInt_digits (decimal_toString k).1
    rw [(decimal_toString k).2] at digits
    have literal : BigInt (toString (k : Int)) = some (k : Int) := digits
    have kept : k < 2 ^ 32 := by omega
    simp only [literal,numberOf_nat kept,toUint32_nat kept]

theorem unsigned_bigint (n : Int) : unsigned p (Form.bigint.write n) = .error typeError := rfl

theorem decode_parts (lo hi : Form) (n : Int) : decodeScAmount p (parts lo hi n) = (do
    let low ← unsigned p (lo.write (n % 2 ^ 64))
    let high ← unsigned p (hi.write (n / 2 ^ 64))
    return some ((high : Int) * 2 ^ 64 + low)) := by
  cases lo <;> rfl

theorem decoded_iff (lo hi : Form) (n : Int) : decodeScAmount p (parts lo hi n) = .ok (some n) ↔
    (lo ≠ .bigint ∧ hi ≠ .bigint) ∧ 0 ≤ n ∧ n % 2 ^ 64 < 2 ^ 32 ∧ n / 2 ^ 64 < 2 ^ 32 := by
  rw [decode_parts]
  by_cases low : lo = .bigint
  · subst low
    rw [unsigned_bigint]
    exact ⟨(fun same => by cases same),fun is => absurd rfl is.1.1⟩
  · obtain ⟨word,read,small,kept⟩ := @unsigned_write p lo low (n % 2 ^ 64)
    rw [read]
    by_cases high : hi = .bigint
    · subst high
      rw [unsigned_bigint]
      exact ⟨(fun same => by cases same),fun is => absurd rfl is.1.2⟩
    · obtain ⟨word',read',small',kept'⟩ := @unsigned_write p hi high (n / 2 ^ 64)
      rw [read']
      show (Except.ok (some ((word' : Int) * 2 ^ 64 + word)) : Except String (Option Int)) = .ok (some n) ↔ _
      constructor
      · intro same
        have sum := Option.some.inj (Except.ok.inj same)
        exact ⟨⟨low,high⟩,by omega,by omega,by omega⟩
      · rintro ⟨-,nonneg,fits,fits'⟩
        have first := kept (by omega) fits
        have second := kept' (by omega) fits'
        have sum : (word' : Int) * 2 ^ 64 + word = n := by omega
        rw [sum]

theorem reported_of_decoded {lo hi : Form} {n : Int} (decoded : decodeScAmount p (parts lo hi n) = .ok (some n)) {event : SorobanRpcEvent}
    (carries : Carries event (parts lo hi n)) : event.rawAmount p = .ok (some n) := by
  rw [SorobanRpcEvent.rawAmount]
  rcases carries with under | whole
  · rw [under,decoded]
    rfl
  · rw [whole]
    exact decoded

/-- An amount of 128 bits is read exactly where both words are numbers or texts of 32 bits. -/
theorem transfers_exact (p : Platform) (lo hi : Form) (n : Int) : Reads p (parts lo hi n) n ↔
    (lo ≠ .bigint ∧ hi ≠ .bigint) ∧ 0 ≤ n ∧ n % 2 ^ 64 < 2 ^ 32 ∧ n / 2 ^ 64 < 2 ^ 32 := by
  rw [← @decoded_iff p]
  refine ⟨Reads.decoded,fun decoded => ⟨decoded,fun event decimals carries transfer named => ?_⟩⟩
  have amount := reported_of_decoded decoded carries
  have parties : ¬ ((!(event.party p 1 "from").truthy) = true ∧ (!(event.party p 2 "to").truthy) = true) := by
    rintro ⟨first,second⟩
    rcases named with is | is
    · rw [is] at first
      cases first
    · rw [is] at second
      cases second
  refine ⟨⟨event.contractId.getD "",event.assetCode,event.assetIssuer,event.party p 1 "from",event.party p 2 "to",
    formatTokenAmount (.bigint n) decimals,toString n⟩,?_,rfl⟩
  show (event.rawAmount p).bind _ = _
  rw [amount]
  show (if event.action ≠ "transfer" then _ else _) = _
  rw [if_neg (not_not.mpr transfer),if_neg parties]
  rfl

end Words

def plainPlatform : Platform := ⟨fun _ => none,fun _ => .nan⟩

/-- 429.4967296 tokens of seven places are none. -/
theorem word_lost : ¬ ∀ (p : Platform) (lo hi : Form) (n : Int), -2 ^ 127 ≤ n → n < 2 ^ 127 → Reads p (parts lo hi n) n := by
  intro always
  have read := (always plainPlatform .number .number (2 ^ 32) (by decide) (by decide)).decoded
  have zero : decodeScAmount plainPlatform (parts .number .number (2 ^ 32)) = .ok (some 0) := by decide +kernel
  rw [zero] at read
  exact absurd (Option.some.inj (Except.ok.inj read)) (by decide)

end StellarAlerts.SacTransfers
