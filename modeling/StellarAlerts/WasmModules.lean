import Mathlib.Data.Nat.Bitwise
import StellarAlerts.WasmAnalyzer
import StellarAlerts.WasmBinary

/-!
What the analyzer reads of modules.
-/
namespace StellarAlerts.WasmModules
open ByteReaders WasmAnalyzer WasmBinary

theorem safe_get : Safe 0 (get : Reader ByteCursor) := fun _ => safeAt_ok rfl ⟨rfl,Nat.le_refl _⟩
theorem safe_readByte : Safe 1 readByte := safe_byte _
theorem safe_skipBytes (count : Nat) : Safe 0 (skipBytes count) := (safe_skip _ count).weaken

theorem safe_varUint32 (turns result shift : Nat) : Safe 1 (varUint32 turns result shift) := by
  induction turns generalizing result shift with
  | zero => exact safe_fail _
  | succ turns ih =>
    refine safe_readByte.then fun b => ?_
    dsimp only
    split
    · exact safe_pure _
    · exact (ih _ _).weaken

theorem safe_readVarUint32 : Safe 1 readVarUint32 := safe_varUint32 5 0 0

theorem readBytes_run (count : Nat) (c : ByteCursor) :
    readBytes count c =
      if c.bytes.length < c.offset + count then .error (.thrown unexpectedEnd)
      else .ok ((c.bytes.drop c.offset).take count,{ c with offset := c.offset + count }) := by
  have start : readBytes count c =
      (skipBytes count >>= fun _ => pure ((c.bytes.drop c.offset).take count) : Reader (List UInt8)) c := rfl
  have moved := skip_run unexpectedEnd count c
  rw [start]
  by_cases past : c.bytes.length < c.offset + count
  · rw [if_pos past] at moved ⊢
    rw [bind_run,skipBytes,moved]
  · rw [if_neg past] at moved ⊢
    exact bind_ok moved

theorem safe_readUint32LE : Safe 0 readUint32LE := by
  intro c
  have four := readBytes_run 4 c
  split at four
  · exact safeAt_error (by rw [readUint32LE,bind_run,four])
  · next enough =>
    have count : ((c.bytes.drop c.offset).take 4).length = 4 := by
      rw [List.length_take,List.length_drop]
      omega
    obtain ⟨b0,b1,b2,b3,is⟩ := List.length_eq_four.mp count
    rw [is] at four
    exact safeAt_ok (bind_ok four) ⟨rfl,Nat.le_add_right _ _⟩

theorem safe_sectionTurn (sections : List WasmSection) : Safe 1 (sectionTurn sections) :=
  safe_readByte.then fun _ => safe_readVarUint32.weaken.then fun _ => safe_get.then fun _ =>
    (safe_skipBytes _).then fun _ => safe_pure _

theorem safe_parseSections : Safe 0 parseSections := safe_whileBytes safe_sectionTurn []

theorem safe_readLimits : Safe 1 readLimits := by
  refine safe_readByte.then fun flags => safe_readVarUint32.weaken.then fun _ => ?_
  split
  · exact safe_readVarUint32.weaken.then fun _ => safe_pure _
  · exact safe_pure _

theorem safe_importTurn : Safe 1 importTurn := by
  refine safe_readVarUint32.then fun moduleLen => (safe_skipBytes _).then fun _ => safe_readVarUint32.weaken.then fun fieldLen =>
    (safe_skipBytes _).then fun _ => safe_readByte.weaken.then fun kind => ?_
  split
  · exact safe_readVarUint32.weaken.then fun _ => safe_pure _
  split
  · exact safe_readByte.weaken.then fun _ => safe_readLimits.weaken.then fun _ => safe_pure _
  split
  · exact safe_readLimits.weaken.then fun _ => safe_pure _
  split
  · exact safe_readByte.weaken.then fun _ => safe_readByte.weaken.then fun _ => safe_pure _
  · exact safe_pure _

theorem safe_scanTurn (s : Scan) : Safe 1 (scanTurn s) := by
  refine safe_readByte.then fun op => ?_
  split
  · exact safe_pure _
  split
  · exact safe_readByte.weaken.then fun _ => safe_pure _
  split
  · exact safe_pure _
  split
  · exact safe_pure _
  split
  · exact safe_readVarUint32.weaken.then fun _ => safe_pure _
  split
  · exact safe_readVarUint32.weaken.then fun _ => safe_readByte.weaken.then fun _ => safe_pure _
  split
  · exact safe_readByte.weaken.then fun _ => safe_pure _
  · exact safe_pure _

theorem safe_localsTurn (i : Nat) : Safe 1 (localsTurn i) :=
  safe_readVarUint32.then fun _ => safe_readByte.weaken.then fun _ => safe_pure _

theorem safe_scanReader : Safe 0 scanReader :=
  safe_readVarUint32.weaken.then fun _ => (safe_times safe_localsTurn 0 _).then fun _ =>
    (safe_whileBytes safe_scanTurn _).then fun _ => safe_pure _

/-- There is a result of the kind, or a message is thrown. -/
def Ends {α : Type} (Q : α → Prop) (outcome : Except Fault α) : Prop :=
  (∃ a, outcome = .ok a ∧ Q a) ∨ ∃ message, outcome = .error (.thrown message)

/-- There is any result. -/
def Any {α : Type} (_ : α) : Prop := True

variable {α : Type}

theorem ends_readFrom {p : Reader α} (safe : Safe 0 p) (bytes : List UInt8) (offset : Nat) :
    Ends Any (readFrom p bytes offset) := by
  rw [readFrom]
  cases is : p ⟨bytes,offset⟩ with
  | ok result => exact .inl ⟨result.1,rfl,trivial⟩
  | error fault =>
    obtain ⟨message,rfl⟩ := (safe ⟨bytes,offset⟩).thrown fault is
    exact .inr ⟨message,rfl⟩

theorem Ends.bind {β : Type} {Q : β → Prop} {outcome : Except Fault α} {next : α → Except Fault β} (first : Ends Any outcome)
    (second : ∀ a, Ends Q (next a)) : Ends Q (outcome >>= next) := by
  rcases first with ⟨a,rfl,_⟩ | ⟨message,rfl⟩
  · exact second a
  · exact .inr ⟨message,rfl⟩

theorem ends_whenFound {s : Option WasmSection} {missing : α} {found : WasmSection → Except Fault α}
    (ends : ∀ s, Ends Any (found s)) : Ends Any (whenFound s missing found) := by
  cases s with
  | some s => exact ends s
  | none => exact .inl ⟨missing,rfl,trivial⟩

theorem bodyFindings_ok (importedFunctionCount i : Nat) (body : List UInt8) :
    ∃ findings, bodyFindings importedFunctionCount i (scanFunctionBody body) = .ok findings := by
  rcases ends_readFrom safe_scanReader body 0 with ⟨scan,is,_⟩ | ⟨message,is⟩
  · rw [scanFunctionBody,is]
    exact ⟨_,rfl⟩
  · rw [scanFunctionBody,is]
    exact ⟨_,rfl⟩

theorem safe_codeTurn (importedFunctionCount i : Nat) : Safe 1 (codeTurn importedFunctionCount i) := by
  refine safe_readVarUint32.then fun bodySize => safe_get.then fun c => (safe_skipBytes _).then fun _ => ?_
  obtain ⟨findings,is⟩ := bodyFindings_ok importedFunctionCount i ((c.bytes.drop c.offset).take bodySize)
  rw [is]
  exact safe_pure _

theorem safe_codeReader (importedFunctionCount : Nat) : Safe 0 (codeReader importedFunctionCount) :=
  safe_readVarUint32.weaken.then fun _ => (safe_times (safe_codeTurn _) 0 _).then fun _ => safe_pure _

theorem safe_headerReader : Safe 0 headerReader := by
  refine safe_get.then fun c => ?_
  split
  · exact safe_fail _
  refine safe_readUint32LE.then fun magic => ?_
  split
  · exact safe_fail _
  refine safe_readUint32LE.then fun version => ?_
  split
  · exact safe_fail _
  · exact safe_parseSections

theorem computeRiskScore_le (findings : List WasmRiskFinding) : computeRiskScore findings ≤ 100 := Nat.min_le_left ..

theorem ends_analyze (bytes : List UInt8) : Ends (fun result => result.riskScore ≤ 100) (analyze bytes) := by
  refine (ends_readFrom safe_headerReader bytes 0).bind fun sections => ?_
  refine (ends_whenFound fun s => ends_readFrom ?_ bytes _).bind fun memories => ?_
  · exact safe_readVarUint32.weaken.then fun _ => safe_upTo (safe_readLimits.map _) _ _
  refine (ends_whenFound fun s => ends_readFrom ?_ bytes _).bind fun importedFunctionCount => ?_
  · exact (safe_readVarUint32.weaken.then fun _ => safe_upTo safe_importTurn _ _).map _
  refine (ends_whenFound fun s => ends_readFrom (safe_codeReader _) bytes _).bind fun code => ?_
  exact .inl ⟨_,rfl,computeRiskScore_le _⟩

theorem analyze_result (bytes : List UInt8) : ∃ result, analyzeWasmBytecode bytes = .ok result ∧ result.riskScore ≤ 100 := by
  rw [analyzeWasmBytecode]
  rcases ends_analyze bytes with ⟨result,is,within⟩ | ⟨message,is⟩
  · rw [is]
    exact ⟨result,rfl,within⟩
  · rw [is]
    exact ⟨_,rfl,Nat.le_refl 100⟩

section Numbers
variable {start : Nat} {input : List UInt8}

theorem high_bit {n : Nat} (small : n < 256) : n &&& 0x80 = 0 ↔ n < 128 := by
  have is : n &&& 0x80 = (n.testBit 7).toNat * 2 ^ 7 := Nat.and_two_pow n 7
  rw [is,Nat.testBit_eq_decide_div_mod_eq]
  by_cases high : n / 2 ^ 7 % 2 = 1
  · simp only [high,decide_true,Bool.toNat_true]
    omega
  · simp only [high,decide_false,Bool.toNat_false]
    omega

theorem low_bits (b : UInt8) : b.toNat &&& 0x7f = b.toNat % 128 := Nat.and_two_pow_sub_one_eq_mod b.toNat 7

theorem shifted {result digit k : Nat} (below : result < 2 ^ k) (fits : (digit + 1) * 2 ^ k ≤ 2 ^ 32) :
    (result ||| digit <<< k) % 2 ^ 32 = result + digit * 2 ^ k := by
  have both : result ||| digit <<< k = result + digit * 2 ^ k := by
    rw [Nat.shiftLeft_eq,Nat.or_comm,Nat.mul_comm,← Nat.two_pow_add_eq_or_of_lt below,Nat.add_comm]
  rw [both,Nat.mod_eq_of_lt]
  rw [Nat.add_mul,Nat.one_mul] at fits
  omega

theorem varUint32_succ (turns result shift : Nat) :
    varUint32 (turns + 1) result shift = readByte >>= fun b =>
      if b.toNat &&& 0x80 = 0 then pure ((result ||| (b.toNat &&& 0x7f) <<< shift) % 2 ^ 32)
      else varUint32 turns ((result ||| (b.toNat &&& 0x7f) <<< shift) % 2 ^ 32) (shift + 7) := rfl

theorem reads_varUint32 {bits m turns k result : Nat} (number : Unsigned bits m input) (width : bits + 7 * k = 32)
    (enough : turns + k = 5) (below : result < 2 ^ (7 * k)) :
    Reads (varUint32 turns result (7 * k)) start input (result + m * 2 ^ (7 * k)) := by
  have product : ∀ n, 2 ^ n * 2 ^ (7 * k) = 2 ^ (n + 7 * k) := fun n => (Nat.pow_add ..).symm
  induction number generalizing turns k result start with
  | @last bits b ends fits =>
    obtain ⟨turns,rfl⟩ : ∃ n, turns = n + 1 := ⟨turns - 1,by omega⟩
    have digit : b.toNat &&& 0x7f = b.toNat := by rw [low_bits,Nat.mod_eq_of_lt ends]
    have room : (b.toNat + 1) * 2 ^ (7 * k) ≤ 2 ^ 32 := by
      rw [← width,← product]
      exact Nat.mul_le_mul_right _ fits
    rw [varUint32_succ,← List.append_nil [b]]
    refine (reads_byte _ b).bind ?_
    rw [if_pos ((high_bit (by omega)).mpr ends),digit,shifted below room]
    exact reads_pure
  | @more bits m b rest goesOn room higher ih =>
    obtain ⟨turns,rfl⟩ : ∃ n, turns = n + 1 := ⟨turns - 1,by omega⟩
    have small : b.toNat < 256 := b.toNat_lt
    have digit : b.toNat &&& 0x7f = b.toNat - 128 := by
      rw [low_bits]
      omega
    have power : 2 ^ (7 * (k + 1)) = 128 * 2 ^ (7 * k) := by
      rw [Nat.mul_add,Nat.pow_add,Nat.mul_comm]
    have most : 2 ^ (7 * (k + 1)) ≤ 2 ^ 32 := Nat.pow_le_pow_right (by decide) (by omega)
    have lower : (b.toNat - 128 + 1) * 2 ^ (7 * k) ≤ 128 * 2 ^ (7 * k) := Nat.mul_le_mul_right _ (by omega)
    have value : result + (m * 128 + (b.toNat - 128)) * 2 ^ (7 * k) =
        result + (b.toNat - 128) * 2 ^ (7 * k) + m * 2 ^ (7 * (k + 1)) := by
      rw [power,Nat.add_mul,Nat.mul_assoc]
      omega
    rw [varUint32_succ,value]
    refine (reads_byte _ b).bind ?_
    rw [if_neg (fun low => absurd ((high_bit small).mp low) (by omega)),digit,shifted below (by omega)]
    have next : result + (b.toNat - 128) * 2 ^ (7 * k) < 2 ^ (7 * (k + 1)) := by
      rw [Nat.add_mul,Nat.one_mul] at lower
      omega
    exact ih (by omega) (by omega) next fun n => (Nat.pow_add ..).symm

theorem reads_readVarUint32 {n : Nat} (number : Unsigned 32 n input) : Reads readVarUint32 start input n := by
  have reads : Reads (varUint32 5 0 (7 * 0)) start input (0 + n * 2 ^ (7 * 0)) :=
    reads_varUint32 number (by decide) (by decide) (by decide)
  simpa [readVarUint32] using reads

end Numbers

section Contents
variable {start : Nat} {input : List UInt8}

theorem reads_skipBytes {input : List UInt8} : Reads (skipBytes input.length) start input () := reads_skip _
theorem reads_readByte (b : UInt8) : Reads readByte start [b] b := reads_byte _ b

theorem reads_readLimits {limits : Limits} (bytes : LimitsBytes limits input) :
    Reads readLimits start input limits.max.isSome := by
  cases bytes with
  | atLeast number => exact (reads_readByte 0x00).bind ((reads_readVarUint32 number).then_pure _)
  | between number number' =>
    exact (reads_readByte 0x01).bind ((reads_readVarUint32 number).bind ((reads_readVarUint32 number').then_pure _))

theorem reads_sized {contents : List UInt8} {α : Type} {f : Reader α} {rest : List UInt8} {a : α} (sized : Sized contents input)
    (next : ∀ start, Reads f start rest a) :
    Reads (readVarUint32 >>= fun n => skipBytes n >>= fun _ => f) start (input ++ rest) a := by
  obtain ⟨size,number,rfl⟩ := sized
  rw [List.append_assoc]
  exact (reads_readVarUint32 number).bind (reads_skipBytes.bind (next _))

theorem reads_importTurn {i : Import} (bytes : ImportBytes i input) : Reads importTurn start input (some i.isFunction) := by
  obtain ⟨name,field,desc,isName,isField,isDesc,rfl⟩ := bytes
  refine reads_sized isName fun start => reads_sized isField fun start => ?_
  obtain ⟨_,_,is⟩ := i
  cases isDesc with
  | func number => exact (reads_readByte 0x00).bind ((reads_readVarUint32 number).then_pure _)
  | table elemType limits =>
    exact (reads_readByte 0x01).bind ((reads_readByte elemType).bind ((reads_readLimits limits).then_pure _))
  | memory limits => exact (reads_readByte 0x02).bind ((reads_readLimits limits).then_pure _)
  | «global» valType mutability =>
    exact (reads_readByte 0x03).bind ((reads_readByte valType).bind ((reads_readByte mutability).then_pure _))

def findingsOf (importedFunctionCount i : Nat) (body : List UInt8) : List WasmRiskFinding :=
  match bodyFindings importedFunctionCount i (scanFunctionBody body) with
  | .ok findings => findings
  | .error _ => []

theorem bodyFindings_eq (importedFunctionCount i : Nat) (body : List UInt8) :
    bodyFindings importedFunctionCount i (scanFunctionBody body) = .ok (findingsOf importedFunctionCount i body) := by
  obtain ⟨findings,is⟩ := bodyFindings_ok importedFunctionCount i body
  rw [findingsOf,is]

theorem reads_codeTurn {body : List UInt8} (sized : Sized body input) (importedFunctionCount i : Nat) :
    Reads (codeTurn importedFunctionCount i) start input (findingsOf importedFunctionCount i body) := by
  obtain ⟨size,number,rfl⟩ := sized
  refine (reads_readVarUint32 number).bind (reads_get fun before after place => ?_)
  have slice : ((before ++ body ++ after).drop (start + size.length)).take body.length = body := by
    rw [← place,List.append_assoc,List.drop_left,List.take_left]
  rw [slice,← List.append_nil body]
  have skipped : Reads (skipBytes body.length) (start + size.length) body () := reads_skipBytes
  refine Reads.bind (by rwa [List.append_nil]) ?_
  rw [List.append_nil,bodyFindings_eq]
  exact reads_pure

theorem reads_codeReader {bodies : List (List UInt8)} (vec : Vec Sized bodies input) (importedFunctionCount : Nat) :
    Reads (codeReader importedFunctionCount) start input
      (bodies.length,(bodies.zipIdx.map fun body => findingsOf importedFunctionCount body.2 body.1).flatten) := by
  obtain ⟨count,items,number,isItems,rfl⟩ := vec
  refine (reads_readVarUint32 number).bind (Reads.then_pure ?_ _)
  exact reads_times (P := Sized) (fun body input sized i start => reads_codeTurn sized importedFunctionCount i) isItems 0

theorem reads_memories {memories : List Limits} (vec : Vec LimitsBytes memories input) :
    Reads (readVarUint32 >>= upTo memoryTurn (start + input.length)) start input (memories.map fun limits => limits.max.isSome) := by
  obtain ⟨count,items,number,isItems,rfl⟩ := vec
  refine (reads_readVarUint32 number).bind (reads_upTo (fun limits input bytes => ?_) isItems ?_)
  · exact ⟨bytes.ne_nil,fun start => (reads_readLimits bytes).map some⟩
  · rw [List.length_append]
    omega

theorem ImportBytes_ne_nil {i : Import} (bytes : ImportBytes i input) : input ≠ [] := by
  obtain ⟨name,field,desc,⟨size,number,rfl⟩,_,_,rfl⟩ := bytes
  simp [number.ne_nil]

theorem reads_imports {imports : List Import} (vec : Vec ImportBytes imports input) :
    Reads ((fun kinds => kinds.countP id) <$> (readVarUint32 >>= upTo importTurn (start + input.length))) start input
      (imports.countP Import.isFunction) := by
  obtain ⟨count,items,number,isItems,rfl⟩ := vec
  have kinds : Reads (readVarUint32 >>= upTo importTurn (start + (count ++ items).length)) start (count ++ items)
      (imports.map Import.isFunction) := by
    refine (reads_readVarUint32 number).bind (reads_upTo (fun i input bytes => ?_) isItems ?_)
    · exact ⟨ImportBytes_ne_nil bytes,fun start => reads_importTurn bytes⟩
    · rw [List.length_append]
      omega
  have counted := kinds.map fun kinds => kinds.countP id
  rwa [List.countP_map] at counted

theorem readFrom_reads {α : Type} {p : Reader α} {a : α} (reads : Reads p start input a) {before after : List UInt8}
    (place : before.length = start) : readFrom p (before ++ input ++ after) start = .ok a := by
  rw [readFrom,reads before after place]

end Contents

def placeOf (start : Nat) (s : Section) : WasmSection :=
  let bodyStart := start + 1 + (canonical s.contents.length).length
  ⟨s.id.toNat,bodyStart,s.contents.length,bodyStart⟩

def placed : Nat → List Section → List WasmSection
  | _, [] => []
  | start, s :: rest => placeOf start s :: placed (start + s.bytes.length) rest

theorem placed_append (start : Nat) (before after : List Section) :
    placed start (before ++ after) = placed start before ++ placed (start + (before.flatMap Section.bytes).length) after := by
  induction before generalizing start with
  | nil => simp [placed]
  | cons s rest ih =>
    rw [List.cons_append,placed,placed,ih,List.flatMap_cons,List.length_append,Nat.add_assoc]
    rfl

theorem length_placed (start : Nat) (sections : List Section) : (placed start sections).length = sections.length := by
  induction sections generalizing start with
  | nil => rfl
  | cons s rest ih => rw [placed,List.length_cons,ih,List.length_cons]

theorem reads_sectionTurn (sections : List WasmSection) {start : Nat} (s : Section) :
    Reads (sectionTurn sections) start s.bytes (.inl (sections ++ [placeOf start s])) := by
  refine (reads_readByte s.id).bind ((reads_readVarUint32 (canonical_unsigned s.fits)).bind ?_)
  exact reads_get fun before after place => (reads_skipBytes.then_pure _)

theorem parse_placed (found : List WasmSection) (before : List UInt8) (sections : List Section) :
    whileBytes sectionTurn found ⟨before ++ sections.flatMap Section.bytes,before.length⟩ =
      .ok (found ++ placed before.length sections,
        ⟨before ++ sections.flatMap Section.bytes,(before ++ sections.flatMap Section.bytes).length⟩) := by
  induction sections generalizing found before with
  | nil =>
    rw [List.flatMap_nil,List.append_nil,placed,List.append_nil]
    exact whileBytes_end safe_sectionTurn
  | cons s rest ih =>
    have next := ih (found ++ [placeOf before.length s]) (before ++ s.bytes)
    rw [List.flatMap_cons,← List.append_assoc,whileBytes_again safe_sectionTurn (reads_sectionTurn found s)
      (List.cons_ne_nil _ _) rfl,← List.length_append,next,placed,List.length_append,List.append_assoc,List.singleton_append]

theorem reads_readUint32LE {start : Nat} (b0 b1 b2 b3 : UInt8) :
    Reads readUint32LE start [b0,b1,b2,b3]
      ((b0.toNat ||| b1.toNat <<< 8 ||| b2.toNat <<< 16 ||| b3.toNat <<< 24) % 2 ^ 32) := by
  rintro before after rfl
  have four := readBytes_run 4 ⟨before ++ [b0,b1,b2,b3] ++ after,before.length⟩
  rw [if_neg (by simp)] at four
  have slice : ((before ++ [b0,b1,b2,b3] ++ after).drop before.length).take 4 = [b0,b1,b2,b3] := by
    rw [List.append_assoc,List.drop_left]
    rfl
  rw [slice] at four
  exact bind_ok four

theorem header_read (sections : List Section) : readFrom headerReader (moduleBytes sections) 0 = .ok (placed 8 sections) := by
  have magic : readUint32LE ⟨moduleBytes sections,0⟩ = .ok (WASM_MAGIC,⟨moduleBytes sections,4⟩) :=
    reads_readUint32LE 0x00 0x61 0x73 0x6d [] ([0x01,0x00,0x00,0x00] ++ sections.flatMap Section.bytes) rfl
  have version : readUint32LE ⟨moduleBytes sections,4⟩ = .ok (WASM_VERSION,⟨moduleBytes sections,8⟩) :=
    reads_readUint32LE 0x01 0x00 0x00 0x00 [0x00,0x61,0x73,0x6d] (sections.flatMap Section.bytes) rfl
  have start : headerReader ⟨moduleBytes sections,0⟩ =
      (if ByteCursor.remaining ⟨moduleBytes sections,0⟩ < 8 then fail "Binary is too short to contain a WASM header"
        else readUint32LE >>= fun magic =>
          if magic ≠ WASM_MAGIC then fail "Missing WASM magic number (0x00 0x61 0x73 0x6d)"
          else readUint32LE >>= fun version =>
            if version ≠ WASM_VERSION then fail ("Unsupported WASM binary version: " ++ toString version)
            else parseSections : Reader (List WasmSection)) ⟨moduleBytes sections,0⟩ := rfl
  have enough : ¬ ByteCursor.remaining ⟨moduleBytes sections,0⟩ < 8 := by
    simp only [ByteCursor.remaining,moduleBytes,header,List.length_append,List.length_cons,List.length_nil]
    omega
  rw [readFrom,start,if_neg enough,bind_ok magic,if_neg (not_not.mpr rfl),bind_ok version,if_neg (not_not.mpr rfl)]
  have parsed := parse_placed [] header sections
  rw [List.nil_append] at parsed
  have same : parseSections ⟨moduleBytes sections,8⟩ = whileBytes sectionTurn [] ⟨header ++ sections.flatMap Section.bytes,header.length⟩ :=
    rfl
  rw [same,parsed]
  rfl

theorem section_read {β : Type} {id : UInt8} {P : α → List UInt8 → Prop} {sections : List Section} {things : Option (List α)}
    (once : AtMostOnce id P sections things) (found : WasmSection → Except Fault β) (missing : β) (g : List α → β)
    (reads : ∀ as contents before after, Vec P as contents → moduleBytes sections = before ++ contents ++ after →
      found ⟨id.toNat,before.length,contents.length,before.length⟩ = .ok (g as)) :
    whenFound ((placed 8 sections).find? fun s => s.id = id.toNat) missing found = .ok ((things.map g).getD missing) := by
  have others : ∀ start (rest : List Section), (∀ s ∈ rest, s.id ≠ id) →
      (placed start rest).find? (fun s => s.id = id.toNat) = none := by
    intro start rest apart
    induction rest generalizing start with
    | nil => rfl
    | cons s rest ih =>
      have own : ¬ (placeOf start s).id = id.toNat := fun same => apart s (List.mem_cons_self ..) (UInt8.toNat_inj.mp same)
      rw [placed,List.find?_cons_of_neg (by simpa using own)]
      exact ih _ fun s listed => apart s (List.mem_cons_of_mem _ listed)
  cases things with
  | none =>
    rw [others 8 sections once]
    rfl
  | some as =>
    obtain ⟨before,s,after,rfl,own,apart,vec⟩ := once
    have first := others 8 before fun s listed => apart s (List.mem_append_left _ listed)
    have is : (placeOf (8 + (before.flatMap Section.bytes).length) s).id = id.toNat := congrArg UInt8.toNat own
    rw [placed_append,List.find?_append,first,Option.none_or,placed,List.find?_cons_of_pos (by simpa using is)]
    have bytes : moduleBytes (before ++ s :: after) =
        (header ++ before.flatMap Section.bytes ++ (s.id :: canonical s.contents.length)) ++ s.contents ++
          after.flatMap Section.bytes := by
      simp [moduleBytes,Section.bytes]
    have place : (header ++ before.flatMap Section.bytes ++ (s.id :: canonical s.contents.length)).length =
        (placeOf (8 + (before.flatMap Section.bytes).length) s).bodyStart := by
      simp only [List.length_append,List.length_cons,placeOf,header,List.length_nil]
      omega
    have result := reads as s.contents _ _ vec bytes
    rw [place,← own] at result
    exact result

section Modules
variable {sections : List Section} {imports : Option (List Import)} {memories : Option (List Limits)}
  {bodies : Option (List (List UInt8))}

def allFindings (importedFunctionCount : Nat) (bodies : List (List UInt8)) : List WasmRiskFinding :=
  (bodies.zipIdx.map fun body => findingsOf importedFunctionCount body.2 body.1).flatten

theorem analyze_module (wellFormed : WellFormed sections imports memories bodies) :
    ∃ result, analyzeWasmBytecode (moduleBytes sections) = .ok result ∧ result.valid = true ∧
      result.findings = (if result.stats.hasUnboundedMemory then [unboundedMemory] else []) ++
        allFindings ((imports.getD []).countP Import.isFunction) (bodies.getD []) ∧
      result.stats.sectionCount = sections.length ∧ result.stats.functionCount = (bodies.getD []).length ∧
      result.stats.importedFunctionCount = (imports.getD []).countP Import.isFunction ∧
      result.stats.hasUnboundedMemory = (memories.getD []).any fun limits => limits.max.isNone := by
  let importedFunctionCount := (imports.getD []).countP Import.isFunction
  have ofMemories : whenFound ((placed 8 sections).find? fun s => s.id = MEMORY) [] (parseMemorySection (moduleBytes sections)) =
      .ok ((memories.getD []).map fun limits => limits.max.isSome) := by
    refine (section_read wellFormed.memories _ [] (fun memories => memories.map fun limits => limits.max.isSome) ?_).trans ?_
    · intro as contents before after vec is
      rw [is,parseMemorySection]
      exact readFrom_reads (reads_memories vec) rfl
    · cases memories <;> rfl
  have ofImports : whenFound ((placed 8 sections).find? fun s => s.id = IMPORT) 0 (countImportedFunctions (moduleBytes sections)) =
      .ok importedFunctionCount := by
    refine (section_read wellFormed.imports _ 0 (fun imports => imports.countP Import.isFunction) ?_).trans ?_
    · intro as contents before after vec is
      rw [is,countImportedFunctions]
      exact readFrom_reads (reads_imports vec) rfl
    · cases imports <;> rfl
  have ofBodies : whenFound ((placed 8 sections).find? fun s => s.id = CODE) (0,[])
        (fun s => readFrom (codeReader importedFunctionCount) (moduleBytes sections) s.bodyStart) =
      .ok ((bodies.getD []).length,allFindings importedFunctionCount (bodies.getD [])) := by
    refine (section_read wellFormed.bodies _ (0,[]) (fun bodies => (bodies.length,allFindings importedFunctionCount bodies)) ?_).trans ?_
    · intro as contents before after vec is
      rw [is]
      exact readFrom_reads (reads_codeReader vec _) rfl
    · cases bodies <;> rfl
  have unbounded : ((memories.getD []).map fun limits => limits.max.isSome).any (fun hasMax => !hasMax) =
      (memories.getD []).any fun limits => limits.max.isNone := by
    rw [List.any_map]
    refine congrArg (List.any _) (funext fun limits => ?_)
    rw [Function.comp_apply]
    cases limits.max <;> rfl
  have result : analyze (moduleBytes sections) = .ok
      ⟨true,none,(if (memories.getD []).any fun limits => limits.max.isNone then [unboundedMemory] else []) ++
          allFindings importedFunctionCount (bodies.getD []),
        computeRiskScore ((if (memories.getD []).any fun limits => limits.max.isNone then [unboundedMemory] else []) ++
          allFindings importedFunctionCount (bodies.getD [])),
        ⟨(placed 8 sections).length,(bodies.getD []).length,((placed 8 sections).find? fun s => s.id = MEMORY).isSome,
          (memories.getD []).any fun limits => limits.max.isNone,importedFunctionCount⟩⟩ := by
    rw [← unbounded,analyze,header_read]
    show (whenFound ((placed 8 sections).find? fun s => s.id = MEMORY) [] (parseMemorySection (moduleBytes sections)) >>= _) = _
    rw [ofMemories]
    show (whenFound ((placed 8 sections).find? fun s => s.id = IMPORT) 0 (countImportedFunctions (moduleBytes sections)) >>= _) = _
    rw [ofImports]
    show (whenFound ((placed 8 sections).find? fun s => s.id = CODE) (0,[])
        (fun s => readFrom (codeReader importedFunctionCount) (moduleBytes sections) s.bodyStart) >>= _) = _
    rw [ofBodies]
    rfl
  refine ⟨_,by rw [analyzeWasmBytecode,result],rfl,rfl,length_placed 8 sections,rfl,rfl,rfl⟩

end Modules

/-- Of a module whose import, memory and code sections are well formed the analysis counts the sections, the functions
    and the imported functions, and tells whether a memory has no maximum; and all bytes have an analysis, without a
    byte asked for beyond the end, of a score from none to a hundred. -/
theorem modules_exact :
    (∀ sections imports memories bodies, WellFormed sections imports memories bodies →
      ∃ result, analyzeWasmBytecode (moduleBytes sections) = .ok result ∧ result.valid = true ∧
        result.stats.sectionCount = sections.length ∧ result.stats.functionCount = (bodies.getD []).length ∧
        result.stats.importedFunctionCount = (imports.getD []).countP Import.isFunction ∧
        (result.stats.hasUnboundedMemory = true ↔ ∃ limits ∈ memories.getD [], limits.max = none)) ∧
    ∀ bytes, ∃ result, analyzeWasmBytecode bytes = .ok result ∧ 0 ≤ result.riskScore ∧ result.riskScore ≤ 100 := by
  constructor
  · intro sections imports memories bodies wellFormed
    obtain ⟨result,is,valid,_,sectionCount,functionCount,importedFunctionCount,unbounded⟩ := analyze_module wellFormed
    refine ⟨result,is,valid,sectionCount,functionCount,importedFunctionCount,?_⟩
    rw [unbounded,List.any_eq_true]
    simp only [Option.isNone_iff_eq_none]
  · intro bytes
    obtain ⟨result,is,within⟩ := analyze_result bytes
    exact ⟨result,is,Nat.zero_le _,within⟩

end StellarAlerts.WasmModules
