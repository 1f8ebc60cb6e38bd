import StellarAlerts.WasmBinary

/-!
The instructions of the WebAssembly MVP: their syntax, the order in which they stand in
the bytes of a function body, their bytes, and which bodies are valid.
-/
namespace StellarAlerts.WasmInstructions
open ByteReaders WasmBinary

inductive ValType where
  | i32
  | i64
  | f32
  | f64
deriving DecidableEq

/-- What a block leaves on the stack: at most one value. -/
abbrev BlockType := Option ValType

/-- Instructions that neither open blocks nor call nor grow a memory. Loads, stores and numeric instructions go by their opcodes. -/
inductive Plain where
  | nop
  | br (label : Nat)
  | brIf (label : Nat)
  | brTable (labels : List Nat) (default_ : Nat)
  | ret
  | drop
  | select
  | localGet (i : Nat)
  | localSet (i : Nat)
  | localTee (i : Nat)
  | globalGet (i : Nat)
  | globalSet (i : Nat)
  | access (code : UInt8) (align offset : Nat)
  | memorySize
  | i32Const (n : Int)
  | i64Const (n : Int)
  | f32Const (bits : List UInt8)
  | f64Const (bits : List UInt8)
  | numeric (code : UInt8)
deriving DecidableEq

inductive Instr where
  | plain (p : Plain)
  | unreachable
  | block (type : BlockType) (body : List Instr)
  | loop (type : BlockType) (body : List Instr)
  | ifThen (type : BlockType) (body : List Instr)
  | ifElse (type : BlockType) (body other : List Instr)
  | call (func : Nat)
  | callIndirect (typeIdx : Nat)
  | memoryGrow

inductive Token where
  | plain (p : Plain)
  | unreachable
  | block (type : BlockType)
  | loop (type : BlockType)
  | if_ (type : BlockType)
  | else_
  | end_
  | call (func : Nat)
  | callIndirect (typeIdx : Nat)
  | memoryGrow
deriving DecidableEq

mutual
def Instr.tokens : Instr → List Token
  | .plain p => [.plain p]
  | .unreachable => [.unreachable]
  | .block type body => .block type :: tokensAll body ++ [.end_]
  | .loop type body => .loop type :: tokensAll body ++ [.end_]
  | .ifThen type body => .if_ type :: tokensAll body ++ [.end_]
  | .ifElse type body other => .if_ type :: tokensAll body ++ .else_ :: tokensAll other ++ [.end_]
  | .call func => [.call func]
  | .callIndirect typeIdx => [.callIndirect typeIdx]
  | .memoryGrow => [.memoryGrow]
def tokensAll : List Instr → List Token
  | [] => []
  | i :: rest => i.tokens ++ tokensAll rest
end

/-- Signed numbers of so many bits, the lowest seven bits first. -/
inductive Signed : Nat → Int → List UInt8 → Prop where
  | nonneg {bits : Nat} {b : UInt8} (ends : b.toNat < 64) (fits : b.toNat < 2 ^ (bits - 1)) : Signed bits b.toNat [b]
  | neg {bits : Nat} {b : UInt8} (low : 64 ≤ b.toNat) (ends : b.toNat < 128) (fits : 128 ≤ b.toNat + 2 ^ (bits - 1)) :
      Signed bits ((b.toNat : Int) - 128) [b]
  | more {bits : Nat} {m : Int} {b : UInt8} {rest : List UInt8} (goesOn : 128 ≤ b.toNat) (room : 7 < bits)
      (higher : Signed (bits - 7) m rest) : Signed bits (m * 128 + ((b.toNat : Int) - 128)) (b :: rest)

def ValType.byte : ValType → UInt8
  | .i32 => 0x7f
  | .i64 => 0x7e
  | .f32 => 0x7d
  | .f64 => 0x7c

def blockByte : BlockType → UInt8
  | none => 0x40
  | some type => type.byte

inductive PlainBytes : Plain → List UInt8 → Prop where
  | nop : PlainBytes .nop [0x01]
  | br {l : Nat} {input : List UInt8} (index : Unsigned 32 l input) : PlainBytes (.br l) (0x0c :: input)
  | brIf {l : Nat} {input : List UInt8} (index : Unsigned 32 l input) : PlainBytes (.brIf l) (0x0d :: input)
  | brTable {labels : List Nat} {l : Nat} {input input' : List UInt8} (vec : Vec (Unsigned 32) labels input)
      (index : Unsigned 32 l input') : PlainBytes (.brTable labels l) (0x0e :: (input ++ input'))
  | ret : PlainBytes .ret [0x0f]
  | drop : PlainBytes .drop [0x1a]
  | select : PlainBytes .select [0x1b]
  | localGet {i : Nat} {input : List UInt8} (index : Unsigned 32 i input) : PlainBytes (.localGet i) (0x20 :: input)
  | localSet {i : Nat} {input : List UInt8} (index : Unsigned 32 i input) : PlainBytes (.localSet i) (0x21 :: input)
  | localTee {i : Nat} {input : List UInt8} (index : Unsigned 32 i input) : PlainBytes (.localTee i) (0x22 :: input)
  | globalGet {i : Nat} {input : List UInt8} (index : Unsigned 32 i input) : PlainBytes (.globalGet i) (0x23 :: input)
  | globalSet {i : Nat} {input : List UInt8} (index : Unsigned 32 i input) : PlainBytes (.globalSet i) (0x24 :: input)
  | access {code : UInt8} {align offset : Nat} {input input' : List UInt8} (least : 0x28 ≤ code) (most : code ≤ 0x3e)
      (alignment : Unsigned 32 align input) (displacement : Unsigned 32 offset input') :
      PlainBytes (.access code align offset) (code :: (input ++ input'))
  | memorySize : PlainBytes .memorySize [0x3f,0x00]
  | i32Const {n : Int} {input : List UInt8} (number : Signed 32 n input) : PlainBytes (.i32Const n) (0x41 :: input)
  | i64Const {n : Int} {input : List UInt8} (number : Signed 64 n input) : PlainBytes (.i64Const n) (0x42 :: input)
  | f32Const {bits : List UInt8} (four : bits.length = 4) : PlainBytes (.f32Const bits) (0x43 :: bits)
  | f64Const {bits : List UInt8} (eight : bits.length = 8) : PlainBytes (.f64Const bits) (0x44 :: bits)
  | numeric {code : UInt8} (least : 0x45 ≤ code) (most : code ≤ 0xbf) : PlainBytes (.numeric code) [code]

inductive TokenBytes : Token → List UInt8 → Prop where
  | plain {p : Plain} {input : List UInt8} (bytes : PlainBytes p input) : TokenBytes (.plain p) input
  | unreachable : TokenBytes .unreachable [0x00]
  | block (type : BlockType) : TokenBytes (.block type) [0x02,blockByte type]
  | loop (type : BlockType) : TokenBytes (.loop type) [0x03,blockByte type]
  | if_ (type : BlockType) : TokenBytes (.if_ type) [0x04,blockByte type]
  | else_ : TokenBytes .else_ [0x05]
  | end_ : TokenBytes .end_ [0x0b]
  | call {func : Nat} {input : List UInt8} (index : Unsigned 32 func input) : TokenBytes (.call func) (0x10 :: input)
  | callIndirect {typeIdx : Nat} {input : List UInt8} (index : Unsigned 32 typeIdx input) :
      TokenBytes (.callIndirect typeIdx) (0x11 :: (input ++ [0x00]))
  | memoryGrow : TokenBytes .memoryGrow [0x40,0x00]

/-- A function but for its type: groups of locals, and the instructions. -/
structure Function where
  locals : List (Nat × ValType)
  body : List Instr

def Function.tokens (f : Function) : List Token := tokensAll f.body ++ [.end_]
def LocalsBytes (group : Nat × ValType) (input : List UInt8) : Prop :=
  ∃ count, Unsigned 32 group.1 count ∧ input = count ++ [group.2.byte]
def FunctionBytes (f : Function) (input : List UInt8) : Prop :=
  ∃ locals body, Vec LocalsBytes f.locals locals ∧ Items TokenBytes f.tokens body ∧ input = locals ++ body

structure FuncType where
  params : List ValType
  result : Option ValType

/-- What instructions may refer to. Labels are given by what a branch to them takes. -/
structure Context where
  types : List FuncType
  funcs : List FuncType
  table : Bool
  memory : Bool
  globals : List (ValType × Bool)
  locals : List ValType
  labels : List (List ValType)
  result : List ValType

/-- The operands of loads and stores, what they leave, and the largest alignment. -/
def accessType (code : UInt8) : List ValType × List ValType × Nat :=
  match code.toNat with
  | 0x28 => ([.i32],[.i32],2)
  | 0x29 => ([.i32],[.i64],3)
  | 0x2a => ([.i32],[.f32],2)
  | 0x2b => ([.i32],[.f64],3)
  | 0x2c | 0x2d => ([.i32],[.i32],0)
  | 0x2e | 0x2f => ([.i32],[.i32],1)
  | 0x30 | 0x31 => ([.i32],[.i64],0)
  | 0x32 | 0x33 => ([.i32],[.i64],1)
  | 0x34 | 0x35 => ([.i32],[.i64],2)
  | 0x36 => ([.i32,.i32],[],2)
  | 0x37 => ([.i32,.i64],[],3)
  | 0x38 => ([.i32,.f32],[],2)
  | 0x39 => ([.i32,.f64],[],3)
  | 0x3a => ([.i32,.i32],[],0)
  | 0x3b => ([.i32,.i32],[],1)
  | 0x3c => ([.i32,.i64],[],0)
  | 0x3d => ([.i32,.i64],[],1)
  | _ => ([.i32,.i64],[],2)

/-- The operands of numeric instructions and what they leave. -/
def numericType (code : UInt8) : List ValType × ValType :=
  let n := code.toNat
  if n = 0x45 then ([.i32],.i32)
  else if n ≤ 0x4f then ([.i32,.i32],.i32)
  else if n = 0x50 then ([.i64],.i32)
  else if n ≤ 0x5a then ([.i64,.i64],.i32)
  else if n ≤ 0x60 then ([.f32,.f32],.i32)
  else if n ≤ 0x66 then ([.f64,.f64],.i32)
  else if n ≤ 0x69 then ([.i32],.i32)
  else if n ≤ 0x78 then ([.i32,.i32],.i32)
  else if n ≤ 0x7b then ([.i64],.i64)
  else if n ≤ 0x8a then ([.i64,.i64],.i64)
  else if n ≤ 0x91 then ([.f32],.f32)
  else if n ≤ 0x98 then ([.f32,.f32],.f32)
  else if n ≤ 0x9f then ([.f64],.f64)
  else if n ≤ 0xa6 then ([.f64,.f64],.f64)
  else if n = 0xa7 then ([.i64],.i32)
  else if n ≤ 0xa9 then ([.f32],.i32)
  else if n ≤ 0xab then ([.f64],.i32)
  else if n ≤ 0xad then ([.i32],.i64)
  else if n ≤ 0xaf then ([.f32],.i64)
  else if n ≤ 0xb1 then ([.f64],.i64)
  else if n ≤ 0xb3 then ([.i32],.f32)
  else if n ≤ 0xb5 then ([.i64],.f32)
  else if n = 0xb6 then ([.f64],.f32)
  else if n ≤ 0xb8 then ([.i32],.f64)
  else if n ≤ 0xba then ([.i64],.f64)
  else if n = 0xbb then ([.f32],.f64)
  else if n = 0xbc then ([.f32],.i32)
  else if n = 0xbd then ([.f64],.i64)
  else if n = 0xbe then ([.i32],.f32)
  else ([.i64],.f64)

/-- An instruction takes values from the stack and leaves others. -/
inductive PlainTyped (c : Context) : Plain → List ValType → List ValType → Prop where
  | nop : PlainTyped c .nop [] []
  | br {l : Nat} {taken : List ValType} (label : c.labels[l]? = some taken) (below left : List ValType) :
      PlainTyped c (.br l) (below ++ taken) left
  | brIf {l : Nat} {taken : List ValType} (label : c.labels[l]? = some taken) : PlainTyped c (.brIf l) (taken ++ [.i32]) taken
  | brTable {labels : List Nat} {l : Nat} {taken : List ValType} (label : ∀ i ∈ l :: labels, c.labels[i]? = some taken)
      (below left : List ValType) : PlainTyped c (.brTable labels l) (below ++ taken ++ [.i32]) left
  | ret (below left : List ValType) : PlainTyped c .ret (below ++ c.result) left
  | drop (type : ValType) : PlainTyped c .drop [type] []
  | select (type : ValType) : PlainTyped c .select [type,type,.i32] [type]
  | localGet {i : Nat} {type : ValType} (declared : c.locals[i]? = some type) : PlainTyped c (.localGet i) [] [type]
  | localSet {i : Nat} {type : ValType} (declared : c.locals[i]? = some type) : PlainTyped c (.localSet i) [type] []
  | localTee {i : Nat} {type : ValType} (declared : c.locals[i]? = some type) : PlainTyped c (.localTee i) [type] [type]
  | globalGet {i : Nat} {type : ValType} {mutability : Bool} (declared : c.globals[i]? = some (type,mutability)) :
      PlainTyped c (.globalGet i) [] [type]
  | globalSet {i : Nat} {type : ValType} (declared : c.globals[i]? = some (type,true)) : PlainTyped c (.globalSet i) [type] []
  | access {code : UInt8} {align offset : Nat} (memory : c.memory = true) (aligned : align ≤ (accessType code).2.2) :
      PlainTyped c (.access code align offset) (accessType code).1 (accessType code).2.1
  | memorySize (memory : c.memory = true) : PlainTyped c .memorySize [] [.i32]
  | i32Const (n : Int) : PlainTyped c (.i32Const n) [] [.i32]
  | i64Const (n : Int) : PlainTyped c (.i64Const n) [] [.i64]
  | f32Const (bits : List UInt8) : PlainTyped c (.f32Const bits) [] [.f32]
  | f64Const (bits : List UInt8) : PlainTyped c (.f64Const bits) [] [.f64]
  | numeric (code : UInt8) : PlainTyped c (.numeric code) (numericType code).1 [(numericType code).2]

def Context.within (c : Context) (label : List ValType) : Context := { c with labels := label :: c.labels }

mutual
inductive Typed : Context → Instr → List ValType → List ValType → Prop where
  | plain {c : Context} {p : Plain} {taken left : List ValType} (typed : PlainTyped c p taken left) : Typed c (.plain p) taken left
  | unreachable (c : Context) (taken left : List ValType) : Typed c .unreachable taken left
  | block {c : Context} {type : BlockType} {body : List Instr} (typed : TypedAll (c.within type.toList) body [] type.toList) :
      Typed c (.block type body) [] type.toList
  | loop {c : Context} {type : BlockType} {body : List Instr} (typed : TypedAll (c.within []) body [] type.toList) :
      Typed c (.loop type body) [] type.toList
  | ifThen {c : Context} {body : List Instr} (typed : TypedAll (c.within []) body [] []) : Typed c (.ifThen none body) [.i32] []
  | ifElse {c : Context} {type : BlockType} {body other : List Instr} (typed : TypedAll (c.within type.toList) body [] type.toList)
      (typed' : TypedAll (c.within type.toList) other [] type.toList) : Typed c (.ifElse type body other) [.i32] type.toList
  | call {c : Context} {func : Nat} {type : FuncType} (declared : c.funcs[func]? = some type) :
      Typed c (.call func) type.params type.result.toList
  | callIndirect {c : Context} {typeIdx : Nat} {type : FuncType} (table : c.table = true) (declared : c.types[typeIdx]? = some type) :
      Typed c (.callIndirect typeIdx) (type.params ++ [.i32]) type.result.toList
  | memoryGrow {c : Context} (memory : c.memory = true) : Typed c .memoryGrow [.i32] [.i32]
inductive TypedAll : Context → List Instr → List ValType → List ValType → Prop where
  | nil (c : Context) (stack : List ValType) : TypedAll c [] stack stack
  | cons {c : Context} {i : Instr} {rest : List Instr} {taken left below stack : List ValType} (first : Typed c i taken left)
      (later : TypedAll c rest (below ++ left) stack) : TypedAll c (i :: rest) (below ++ taken) stack
end

def Valid (c : Context) (type : FuncType) (f : Function) : Prop :=
  TypedAll
    { c with
      locals := type.params ++ f.locals.flatMap fun group => List.replicate group.1 group.2
      labels := [type.result.toList]
      result := type.result.toList }
    f.body [] type.result.toList

end StellarAlerts.WasmInstructions
