import StellarAlerts.ByteReaders

/-!
The static analyzer of contract bytecode: a cursor over the bytes, the sections of the module, the
memory and import sections, and a scan of each function body that knows a few instructions.
-/
namespace StellarAlerts.WasmAnalyzer
open ByteReaders

inductive WasmRiskSeverity where
  | critical
  | high
  | medium
  | low
deriving DecidableEq, Repr

structure WasmRiskFinding where
  severity : WasmRiskSeverity
  code : String
  message : String
  functionIndex : Option Nat
deriving DecidableEq

structure Stats where
  sectionCount : Nat
  functionCount : Nat
  hasMemorySection : Bool
  hasUnboundedMemory : Bool
  importedFunctionCount : Nat
deriving DecidableEq

structure WasmAnalysisResult where
  valid : Bool
  parseError : Option String
  findings : List WasmRiskFinding
  riskScore : Nat
  stats : Stats
deriving DecidableEq

/-- The bytes 00 61 73 6d, the lowest first. -/
def WASM_MAGIC : Nat := 0x6d736100
def WASM_VERSION : Nat := 1

def OP_UNREACHABLE : UInt8 := 0x00
def OP_BLOCK : UInt8 := 0x02
def OP_LOOP : UInt8 := 0x03
def OP_IF : UInt8 := 0x04
def OP_ELSE : UInt8 := 0x05
def OP_END : UInt8 := 0x0b
def OP_CALL : UInt8 := 0x10
def OP_CALL_INDIRECT : UInt8 := 0x11
def OP_MEMORY_GROW : UInt8 := 0x40

def IMPORT : Nat := 2
def MEMORY : Nat := 5
def CODE : Nat := 10

def unexpectedEnd : String := "Unexpected end of WASM binary"
def readByte : Reader UInt8 := byte unexpectedEnd

/-- `cursor.skip(count)`. -/
def skipBytes (count : Nat) : Reader Unit := skip unexpectedEnd count

def readBytes (count : Nat) : Reader (List UInt8) := do
  let c ← get
  skipBytes count
  return (c.bytes.drop c.offset).take count

/-- The loop over at most five bytes; `|=` and `<<` keep 32 bits. -/
def varUint32 : Nat → Nat → Nat → Reader Nat
  | 0, _, _ => fail "Malformed LEB128 varuint32 (too many bytes)"
  | turns + 1, result, shift => do
    let b ← readByte
    let result := (result ||| (b.toNat &&& 0x7f) <<< shift) % 2 ^ 32
    if b.toNat &&& 0x80 = 0 then return result
    else varUint32 turns result (shift + 7)

def readVarUint32 : Reader Nat := varUint32 5 0 0

def readUint32LE : Reader Nat := do
  match ← readBytes 4 with
  | [b0,b1,b2,b3] => return (b0.toNat ||| b1.toNat <<< 8 ||| b2.toNat <<< 16 ||| b3.toNat <<< 24) % 2 ^ 32
  | _ => throw .pastEnd

/-- `new ByteCursor(bytes, offset)`, and what is read from there. -/
def readFrom {α : Type} (p : Reader α) (bytes : List UInt8) (offset : Nat) : Except Fault α :=
  match p ⟨bytes,offset⟩ with
  | .ok (a,_) => .ok a
  | .error fault => .error fault

structure WasmSection where
  id : Nat
  offset : Nat
  size : Nat
  bodyStart : Nat
deriving DecidableEq

def sectionTurn (sections : List WasmSection) : Reader (List WasmSection ⊕ List WasmSection) := do
  let id ← readByte
  let size ← readVarUint32
  let bodyStart := (← get).offset
  skipBytes size
  return .inl (sections ++ [⟨id.toNat,bodyStart,size,bodyStart⟩])

def parseSections : Reader (List WasmSection) := whileBytes sectionTurn []

/-- `flags & 0x01` decides whether a maximum follows the minimum. -/
def readLimits : Reader Bool := do
  let flags ← readByte
  let _ ← readVarUint32
  if flags &&& 0x01 ≠ 0 then
    let _ ← readVarUint32
    return true
  else return false

def memoryTurn : Reader (Option Bool) := some <$> readLimits

/-- For each memory, whether it has a maximum. -/
def parseMemorySection (bytes : List UInt8) (s : WasmSection) : Except Fault (List Bool) :=
  readFrom (readVarUint32 >>= upTo memoryTurn (s.bodyStart + s.size)) bytes s.bodyStart

/-- An import, and whether it is of a function; an unknown kind leaves the loop. -/
def importTurn : Reader (Option Bool) := do
  let moduleLen ← readVarUint32
  skipBytes moduleLen
  let fieldLen ← readVarUint32
  skipBytes fieldLen
  let kind ← readByte
  if kind = 0x00 then
    let _ ← readVarUint32
    return some true
  else if kind = 0x01 then
    let _ ← readByte
    let _ ← readLimits
    return some false
  else if kind = 0x02 then
    let _ ← readLimits
    return some false
  else if kind = 0x03 then
    let _ ← readByte
    let _ ← readByte
    return some false
  else return none

def countImportedFunctions (bytes : List UInt8) (s : WasmSection) : Except Fault Nat :=
  readFrom ((fun kinds => kinds.countP id) <$> (readVarUint32 >>= upTo importTurn (s.bodyStart + s.size))) bytes s.bodyStart

structure FunctionBodyScanResult where
  hasBareUnreachable : Bool
  hasUnboundedMemoryGrow : Bool
  callsBeforeLikelyStateChange : Bool
deriving DecidableEq

structure Scan where
  depth : Nat
  hasBareUnreachable : Bool
  hasUnboundedMemoryGrow : Bool
  sawCallBeforeEnd : Bool
deriving DecidableEq

/-- One instruction; one that is not known ends the scan with what was found so far. -/
def scanTurn (s : Scan) : Reader (Scan ⊕ Scan) := do
  let op ← readByte
  if op = OP_UNREACHABLE then return .inl (if s.depth = 0 then { s with hasBareUnreachable := true } else s)
  else if op = OP_BLOCK ∨ op = OP_LOOP ∨ op = OP_IF then
    let _ ← readByte
    return .inl { s with depth := s.depth + 1 }
  else if op = OP_ELSE then return .inl s
  else if op = OP_END then return .inl (if 0 < s.depth then { s with depth := s.depth - 1 } else s)
  else if op = OP_CALL then
    let _ ← readVarUint32
    return .inl { s with sawCallBeforeEnd := true }
  else if op = OP_CALL_INDIRECT then
    let _ ← readVarUint32
    let _ ← readByte
    return .inl { s with sawCallBeforeEnd := true }
  else if op = OP_MEMORY_GROW then
    let _ ← readByte
    return .inl { s with hasUnboundedMemoryGrow := true }
  else return .inr s

/-- The count and the type of a group of locals. -/
def localsTurn (_ : Nat) : Reader Unit := do
  let _ ← readVarUint32
  let _ ← readByte

def scanReader : Reader FunctionBodyScanResult := do
  let localGroups ← readVarUint32
  let _ ← times localsTurn 0 localGroups
  let s ← whileBytes scanTurn ⟨0,false,false,false⟩
  return ⟨s.hasBareUnreachable,s.hasUnboundedMemoryGrow,s.sawCallBeforeEnd⟩

def scanFunctionBody (body : List UInt8) : Except Fault FunctionBodyScanResult := readFrom scanReader body 0

def severityWeight : WasmRiskSeverity → Nat
  | .critical => 40
  | .high => 25
  | .medium => 12
  | .low => 5

def computeRiskScore (findings : List WasmRiskFinding) : Nat :=
  min 100 (findings.foldl (fun sum f => sum + severityWeight f.severity) 0)

def unboundedMemory : WasmRiskFinding :=
  ⟨.high,"UNBOUNDED_MEMORY_DECLARATION",
    "Module declares linear memory with no maximum page limit. An attacker-influenced " ++
      "allocation loop could grow memory without bound, exhausting host resources.",none⟩

def parseIncomplete (i : Nat) (message : String) : WasmRiskFinding :=
  ⟨.low,"FUNCTION_BODY_PARSE_INCOMPLETE",
    "Could not fully decode function body " ++ toString i ++ "'s instructions (" ++ message ++ "); partial scan only.",some i⟩

def unguardedUnreachable (i : Nat) : WasmRiskFinding :=
  ⟨.medium,"UNGUARDED_UNREACHABLE",
    "Function " ++ toString i ++ " contains an `unreachable` instruction at its top level (outside any " ++
      "conditional block) — a Rust panic/unwrap with no surrounding recovery path will trap " ++
      "the whole contract invocation.",some i⟩

def memoryGrow (i : Nat) : WasmRiskFinding :=
  ⟨.medium,"MEMORY_GROW_INSTRUCTION",
    "Function " ++ toString i ++ " calls memory.grow directly; verify the growth amount is bounded by validated input.",some i⟩

def possibleReentrancy (i : Nat) : WasmRiskFinding :=
  ⟨.low,"POSSIBLE_REENTRANCY_ORDERING",
    "Function " ++ toString i ++ " performs a call while imported host functions are available to the module; " ++
      "confirm state is finalized before any external call to avoid a reentrancy window " ++
      "(checks-effects-interactions). This is a coarse heuristic, not a proof of an issue.",some i⟩

def bodyFindings (importedFunctionCount i : Nat) (scan : Except Fault FunctionBodyScanResult) :
    Except Fault (List WasmRiskFinding) :=
  match scan with
  | .error (.thrown message) => .ok [parseIncomplete i message]
  | .error fault => .error fault
  | .ok scan => .ok
      ((if scan.hasBareUnreachable then [unguardedUnreachable i] else []) ++
        (if scan.hasUnboundedMemoryGrow then [memoryGrow i] else []) ++
        (if scan.callsBeforeLikelyStateChange && 0 < importedFunctionCount then [possibleReentrancy i] else []))

/-- One function body; `subarray` ends where the bytes do. -/
def codeTurn (importedFunctionCount i : Nat) : Reader (List WasmRiskFinding) := do
  let bodySize ← readVarUint32
  let c ← get
  let bodyBytes := (c.bytes.drop c.offset).take bodySize
  skipBytes bodySize
  match bodyFindings importedFunctionCount i (scanFunctionBody bodyBytes) with
  | .ok findings => return findings
  | .error fault => throw fault

/-- The number of bodies, and the findings of each. -/
def codeReader (importedFunctionCount : Nat) : Reader (Nat × List WasmRiskFinding) := do
  let bodyCount ← readVarUint32
  let findings ← times (codeTurn importedFunctionCount) 0 bodyCount
  return (bodyCount,findings.flatten)

def headerReader : Reader (List WasmSection) := do
  let c ← get
  if c.remaining < 8 then fail "Binary is too short to contain a WASM header"
  else
    let magic ← readUint32LE
    if magic ≠ WASM_MAGIC then fail "Missing WASM magic number (0x00 0x61 0x73 0x6d)"
    else
      let version ← readUint32LE
      if version ≠ WASM_VERSION then fail ("Unsupported WASM binary version: " ++ toString version)
      else parseSections

def whenFound {α : Type} (s : Option WasmSection) (missing : α) (found : WasmSection → Except Fault α) : Except Fault α :=
  match s with
  | some s => found s
  | none => .ok missing

/-- The `try` block. -/
def analyze (bytes : List UInt8) : Except Fault WasmAnalysisResult := do
  let sections ← readFrom headerReader bytes 0
  let memorySection := sections.find? fun s => s.id = MEMORY
  let importSection := sections.find? fun s => s.id = IMPORT
  let codeSection := sections.find? fun s => s.id = CODE
  let memories ← whenFound memorySection [] (parseMemorySection bytes)
  let hasUnboundedMemory := memories.any fun hasMax => !hasMax
  let importedFunctionCount ← whenFound importSection 0 (countImportedFunctions bytes)
  let code ← whenFound codeSection (0,[]) fun s => readFrom (codeReader importedFunctionCount) bytes s.bodyStart
  let findings := (if hasUnboundedMemory then [unboundedMemory] else []) ++ code.2
  let stats : Stats :=
    ⟨sections.length,code.1,memorySection.isSome,hasUnboundedMemory,importedFunctionCount⟩
  return ⟨true,none,findings,computeRiskScore findings,stats⟩

def analyzeWasmBytecode (wasmBinary : List UInt8) : Except Fault WasmAnalysisResult :=
  match analyze wasmBinary with
  | .ok result => .ok result
  | .error (.thrown message) =>
    .ok { valid := false, parseError := some message, findings := [], riskScore := 100, stats := ⟨0,0,false,false,0⟩ }
  | .error fault => .error fault

end StellarAlerts.WasmAnalyzer
