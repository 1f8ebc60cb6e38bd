import StellarAlerts.WasmInstructions
import StellarAlerts.WasmModules

/-!
Function bodies that grow a memory, and the scan that looks for them. The scan ends without a trace at
the first instruction that it does not know; so exactly the bodies that have only known
instructions before the first `memory.grow` are reported (`growth_exact`).
-/
namespace StellarAlerts.GrowthScan
open ByteReaders WasmAnalyzer WasmBinary WasmInstructions WasmModules

/-- The scan knows what opens and ends blocks, traps, calls and growth. -/
def scanned : Token → Bool
  | .plain _ => false
  | _ => true

def knownOps : List UInt8 :=
  [OP_UNREACHABLE,OP_BLOCK,OP_LOOP,OP_IF,OP_ELSE,OP_END,OP_CALL,OP_CALL_INDIRECT,OP_MEMORY_GROW]

section Turn
variable {input : List UInt8}

theorem plain_opcode {p : Plain} (bytes : PlainBytes p input) : ∃ op rest, input = op :: rest ∧ op ∉ knownOps := by
  cases bytes with
  | access least most _ _ =>
    refine ⟨_,_,rfl,fun listed => ?_⟩
    simp only [knownOps,List.mem_cons,List.not_mem_nil,or_false] at listed
    rcases listed with rfl | rfl | rfl | rfl | rfl | rfl | rfl | rfl | rfl
    all_goals revert least most; decide
  | numeric least most =>
    refine ⟨_,_,rfl,fun listed => ?_⟩
    simp only [knownOps,List.mem_cons,List.not_mem_nil,or_false] at listed
    rcases listed with rfl | rfl | rfl | rfl | rfl | rfl | rfl | rfl | rfl
    all_goals revert least most; decide
  | _ => exact ⟨_,_,rfl,by decide⟩

theorem reads_unknown {op : UInt8} (unknown : op ∉ knownOps) (s : Scan) (start : Nat) :
    Reads (scanTurn s) start [op] (.inr s) := by
  simp only [knownOps,List.mem_cons,List.not_mem_nil,or_false,not_or] at unknown
  obtain ⟨h0,h1,h2,h3,h4,h5,h6,h7,h8⟩ := unknown
  rw [← List.append_nil [op]]
  refine (reads_readByte op).bind ?_
  rw [if_neg h0,if_neg (by simp [h1,h2,h3]),if_neg h4,if_neg h5,if_neg h6,if_neg h7,if_neg h8]
  exact reads_pure

theorem reads_scanned {t : Token} (bytes : TokenBytes t input) (known : scanned t = true) (s : Scan) :
    ∃ s', (∀ start, Reads (scanTurn s) start input (.inl s')) ∧
      s'.hasUnboundedMemoryGrow = (s.hasUnboundedMemoryGrow || decide (t = .memoryGrow)) := by
  have only : ∀ {op : UInt8} {s' : Scan}, (∀ start, Reads (scanTurn s) start ([op] ++ []) (.inl s')) →
      ∀ start, Reads (scanTurn s) start [op] (.inl s') := fun reads start => by simpa using reads start
  cases bytes with
  | plain => cases known
  | unreachable =>
    refine ⟨if s.depth = 0 then { s with hasBareUnreachable := true } else s,?_,?_⟩
    · exact only fun start => (reads_readByte 0x00).bind reads_pure
    · split <;> simp
  | block type =>
    refine ⟨{ s with depth := s.depth + 1 },fun start => ?_,by simp⟩
    exact (reads_readByte 0x02).bind ((reads_readByte _).then_pure _)
  | loop type =>
    refine ⟨{ s with depth := s.depth + 1 },fun start => ?_,by simp⟩
    exact (reads_readByte 0x03).bind ((reads_readByte _).then_pure _)
  | if_ type =>
    refine ⟨{ s with depth := s.depth + 1 },fun start => ?_,by simp⟩
    exact (reads_readByte 0x04).bind ((reads_readByte _).then_pure _)
  | else_ => exact ⟨s,only fun start => (reads_readByte 0x05).bind reads_pure,by simp⟩
  | end_ =>
    refine ⟨if 0 < s.depth then { s with depth := s.depth - 1 } else s,?_,?_⟩
    · exact only fun start => (reads_readByte 0x0b).bind reads_pure
    · split <;> simp
  | call index =>
    refine ⟨{ s with sawCallBeforeEnd := true },fun start => ?_,by simp⟩
    exact (reads_readByte 0x10).bind ((reads_readVarUint32 index).then_pure _)
  | callIndirect index =>
    refine ⟨{ s with sawCallBeforeEnd := true },fun start => ?_,by simp⟩
    exact (reads_readByte 0x11).bind ((reads_readVarUint32 index).bind ((reads_readByte 0x00).then_pure _))
  | memoryGrow =>
    refine ⟨{ s with hasUnboundedMemoryGrow := true },fun start => ?_,by simp⟩
    exact (reads_readByte 0x40).bind ((reads_readByte 0x00).then_pure _)

end Turn

theorem TokenBytes_ne_nil {t : Token} {input : List UInt8} (bytes : TokenBytes t input) : input ≠ [] := by
  cases bytes with
  | plain bytes =>
    obtain ⟨op,rest,rfl,_⟩ := plain_opcode bytes
    exact List.cons_ne_nil op rest
  | _ => exact List.cons_ne_nil _ _

theorem scanTurn_keeps (s : Scan) (noted : s.hasUnboundedMemoryGrow = true) :
    Gives (Sum.elim (fun s => s.hasUnboundedMemoryGrow = true) fun s => s.hasUnboundedMemoryGrow = true) (scanTurn s) := by
  refine gives_bind fun op => ?_
  split
  · refine gives_pure ?_
    dsimp only [Sum.elim_inl]
    split
    · exact noted
    · exact noted
  split
  · exact gives_bind fun _ => gives_pure noted
  split
  · exact gives_pure noted
  split
  · refine gives_pure ?_
    dsimp only [Sum.elim_inl]
    split
    · exact noted
    · exact noted
  split
  · exact gives_bind fun _ => gives_pure noted
  split
  · exact gives_bind fun _ => gives_bind fun _ => gives_pure noted
  split
  · exact gives_bind fun _ => gives_pure rfl
  · exact gives_pure noted

/-- Every instruction before the first growth is known. -/
def Clear (tokens : List Token) : Prop := ∀ t ∈ tokens.takeWhile (fun t => t ≠ .memoryGrow), scanned t = true

theorem clear_cons {t : Token} {rest : List Token} (other : t ≠ .memoryGrow) :
    Clear (t :: rest) ↔ scanned t = true ∧ Clear rest := by
  have kept : (t :: rest).takeWhile (fun t => decide (t ≠ .memoryGrow)) = t :: rest.takeWhile fun t => decide (t ≠ .memoryGrow) :=
    List.takeWhile_cons_of_pos (by simpa using other)
  rw [Clear,kept,List.forall_mem_cons,Clear]

section Row
variable {tokens : List Token} {input : List UInt8}

theorem scan_notes (items : Items TokenBytes tokens input) (grows : .memoryGrow ∈ tokens) (clear : Clear tokens) {s s' : Scan}
    {before : List UInt8} {c : ByteCursor} (is : whileBytes scanTurn s ⟨before ++ input,before.length⟩ = .ok (s',c)) :
    s'.hasUnboundedMemoryGrow = true := by
  induction items generalizing s before with
  | nil => simp at grows
  | @cons t first rest more bytes later ih =>
    have known : scanned t = true := by
      by_cases own : t = .memoryGrow
      · rw [own]
        rfl
      · exact ((clear_cons own).mp clear).1
    obtain ⟨next,reads,noted⟩ := reads_scanned bytes known s
    have again : whileBytes scanTurn s ⟨before ++ first ++ more,before.length⟩ = _ :=
      whileBytes_again safe_scanTurn (reads _) (TokenBytes_ne_nil bytes) rfl
    rw [← List.append_assoc,again] at is
    by_cases own : t = .memoryGrow
    · have noted' : next.hasUnboundedMemoryGrow = true := by
        rw [noted,decide_eq_true own,Bool.or_true]
      exact whileBytes_inv safe_scanTurn scanTurn_keeps noted' is
    · rw [← List.length_append] at is
      have further : .memoryGrow ∈ rest := (List.mem_cons.mp grows).resolve_left (Ne.symm own)
      exact ih further ((clear_cons own).mp clear).2 is

theorem scan_misses (items : Items TokenBytes tokens input) (unclear : ¬ Clear tokens) (s : Scan) (before : List UInt8) :
    ∃ s' c, whileBytes scanTurn s ⟨before ++ input,before.length⟩ = .ok (s',c) ∧
      s'.hasUnboundedMemoryGrow = s.hasUnboundedMemoryGrow := by
  induction items generalizing s before with
  | nil => exact absurd (fun t listed => absurd listed (List.not_mem_nil)) unclear
  | @cons t first rest more bytes later ih =>
    have other : t ≠ .memoryGrow := by
      rintro rfl
      exact unclear fun t listed => by simp at listed
    rw [clear_cons other] at unclear
    by_cases known : scanned t = true
    · obtain ⟨next,reads,noted⟩ := reads_scanned bytes known s
      have again : whileBytes scanTurn s ⟨before ++ first ++ more,before.length⟩ = _ :=
        whileBytes_again safe_scanTurn (reads _) (TokenBytes_ne_nil bytes) rfl
      rw [decide_eq_false other,Bool.or_false] at noted
      rw [← List.append_assoc,again,← List.length_append,← noted]
      exact ih (fun clear => unclear ⟨known,clear⟩) next (before ++ first)
    · cases bytes with
      | plain bytes =>
        obtain ⟨op,immediates,rfl,unknown⟩ := plain_opcode bytes
        have left : whileBytes scanTurn s ⟨before ++ [op] ++ (immediates ++ more),before.length⟩ = _ :=
          whileBytes_left safe_scanTurn (reads_unknown unknown s _) (List.cons_ne_nil op []) rfl
        have shape : before ++ [op] ++ (immediates ++ more) = before ++ (op :: immediates ++ more) := by simp
        rw [shape] at left
        exact ⟨s,_,left,rfl⟩
      | _ => exact absurd rfl known

end Row

section Functions
variable {f : Function} {body : List UInt8}

theorem reads_localsTurn {group : Nat × ValType} {input : List UInt8} (bytes : LocalsBytes group input) (i start : Nat) :
    Reads (localsTurn i) start input () := by
  obtain ⟨count,number,rfl⟩ := bytes
  exact (reads_readVarUint32 number).bind ((reads_readByte _).then_pure _)

theorem scan_body (bytes : FunctionBytes f body) :
    ∃ before input, Items TokenBytes f.tokens input ∧
      scanFunctionBody body =
        match whileBytes scanTurn ⟨0,false,false,false⟩ ⟨before ++ input,before.length⟩ with
        | .ok (s,_) => .ok ⟨s.hasBareUnreachable,s.hasUnboundedMemoryGrow,s.sawCallBeforeEnd⟩
        | .error fault => .error fault := by
  obtain ⟨_,input,⟨count,groups,number,items,rfl⟩,tokens,rfl⟩ := bytes
  refine ⟨count ++ groups,input,tokens,?_⟩
  have first := reads_readVarUint32 number [] (groups ++ input) rfl
  have second : times localsTurn 0 f.locals.length ⟨count ++ groups ++ input,count.length⟩ = _ :=
    reads_times (P := LocalsBytes) (g := fun _ _ => ()) (fun group input bytes i start => reads_localsTurn bytes i start) items 0
      count input rfl
  rw [List.nil_append,← List.append_assoc,List.length_nil,Nat.zero_add] at first
  rw [← List.length_append] at second
  rw [scanFunctionBody,readFrom,scanReader,bind_ok first,bind_ok second,bind_run]
  cases whileBytes scanTurn ⟨0,false,false,false⟩ ⟨count ++ groups ++ input,(count ++ groups).length⟩ <;> rfl

theorem scan_noted (bytes : FunctionBytes f body) (grows : .memoryGrow ∈ f.tokens) (clear : Clear f.tokens)
    {scan : FunctionBodyScanResult} (is : scanFunctionBody body = .ok scan) : scan.hasUnboundedMemoryGrow = true := by
  obtain ⟨before,input,items,same⟩ := scan_body bytes
  rw [same] at is
  split at is
  · next s c found =>
    cases is
    exact scan_notes items grows clear found
  · cases is

theorem scan_missed (bytes : FunctionBytes f body) (unclear : ¬ Clear f.tokens) :
    ∃ scan, scanFunctionBody body = .ok scan ∧ scan.hasUnboundedMemoryGrow = false := by
  obtain ⟨before,input,items,same⟩ := scan_body bytes
  obtain ⟨s,c,is,unnoted⟩ := scan_misses items unclear ⟨0,false,false,false⟩ before
  rw [same,is]
  exact ⟨_,rfl,unnoted⟩

end Functions

/-- The function is reported, as one that grows a memory or as one that was not scanned to the end. -/
def Reported (i : Nat) (findings : List WasmRiskFinding) : Prop :=
  ∃ finding ∈ findings, finding.functionIndex = some i ∧
    (finding.code = "MEMORY_GROW_INSTRUCTION" ∨ finding.code = "FUNCTION_BODY_PARSE_INCOMPLETE")

theorem findingsOf_cases (importedFunctionCount i : Nat) (body : List UInt8) :
    (∃ message, scanFunctionBody body = .error (.thrown message) ∧
        findingsOf importedFunctionCount i body = [parseIncomplete i message]) ∨
      ∃ scan, scanFunctionBody body = .ok scan ∧
        findingsOf importedFunctionCount i body =
          (if scan.hasBareUnreachable then [unguardedUnreachable i] else []) ++
            (if scan.hasUnboundedMemoryGrow then [memoryGrow i] else []) ++
            (if scan.callsBeforeLikelyStateChange && 0 < importedFunctionCount then [possibleReentrancy i] else []) := by
  have same := bodyFindings_eq importedFunctionCount i body
  cases is : scanFunctionBody body with
  | error fault =>
    rw [is] at same
    cases fault with
    | thrown message => exact .inl ⟨message,rfl,(Except.ok.inj same).symm⟩
    | pastEnd => cases same
    | endless => cases same
  | ok scan =>
    rw [is] at same
    exact .inr ⟨scan,rfl,(Except.ok.inj same).symm⟩

theorem mem_ite_singleton {α : Type} {a b : α} {c : Prop} [Decidable c] : a ∈ (if c then [b] else []) ↔ c ∧ a = b := by
  split <;> simp [*]

variable {importedFunctionCount : Nat} {finding : WasmRiskFinding}

theorem findingsOf_index {i : Nat} {body : List UInt8} (listed : finding ∈ findingsOf importedFunctionCount i body) :
    finding.functionIndex = some i := by
  rcases findingsOf_cases importedFunctionCount i body with ⟨message,_,is⟩ | ⟨scan,_,is⟩
  · rw [is,List.mem_singleton] at listed
    rw [listed]
    rfl
  · rw [is,List.mem_append,List.mem_append,mem_ite_singleton,mem_ite_singleton,mem_ite_singleton] at listed
    rcases listed with (⟨_,rfl⟩ | ⟨_,rfl⟩) | ⟨_,rfl⟩ <;> rfl

theorem reported_findingsOf_iff (importedFunctionCount i : Nat) (body : List UInt8) :
    Reported i (findingsOf importedFunctionCount i body) ↔
      ∀ scan, scanFunctionBody body = .ok scan → scan.hasUnboundedMemoryGrow = true := by
  rcases findingsOf_cases importedFunctionCount i body with ⟨message,thrown,is⟩ | ⟨scan,ended,is⟩
  · rw [is,thrown]
    exact ⟨fun _ scan other => (by cases other),fun _ => ⟨_,List.mem_singleton_self _,rfl,.inr rfl⟩⟩
  · rw [is,ended]
    constructor
    · rintro ⟨finding,listed,_,code⟩ scan' own
      cases own
      rw [List.mem_append,List.mem_append,mem_ite_singleton,mem_ite_singleton,mem_ite_singleton] at listed
      rcases listed with (⟨_,rfl⟩ | ⟨noted,_⟩) | ⟨_,rfl⟩
      · simp [unguardedUnreachable] at code
      · exact noted
      · simp [possibleReentrancy] at code
    · intro noted
      refine ⟨memoryGrow i,?_,rfl,.inl rfl⟩
      rw [if_pos (noted scan rfl)]
      simp

theorem mem_allFindings {bodies : List (List UInt8)} :
    finding ∈ allFindings importedFunctionCount bodies ↔
      ∃ i body, bodies[i]? = some body ∧ finding ∈ findingsOf importedFunctionCount i body := by
  simp only [allFindings,List.mem_flatten,List.mem_map,Prod.exists]
  constructor
  · rintro ⟨_,⟨body,i,listed,rfl⟩,found⟩
    exact ⟨i,body,List.mem_zipIdx_iff_getElem?.mp listed,found⟩
  · rintro ⟨i,body,is,found⟩
    exact ⟨_,⟨body,i,List.mem_zipIdx_iff_getElem?.mpr is,rfl⟩,found⟩

section Modules
variable {sections : List Section} {imports : Option (List Import)} {memories : Option (List Limits)}
  {bodies : List (List UInt8)}

/-- The analysis reports a function of a module by its own body. -/
theorem noted_iff (wellFormed : WellFormed sections imports memories (some bodies)) {i : Nat} {body : List UInt8}
    (is : bodies[i]? = some body) :
    ∃ result, analyzeWasmBytecode (moduleBytes sections) = .ok result ∧
      (Reported i result.findings ↔ ∀ scan, scanFunctionBody body = .ok scan → scan.hasUnboundedMemoryGrow = true) := by
  obtain ⟨result,analysed,_,findings,_⟩ := analyze_module wellFormed
  refine ⟨result,analysed,?_⟩
  rw [findings,← reported_findingsOf_iff ((imports.getD []).countP Import.isFunction)]
  constructor
  · rintro ⟨finding,listed,index,code⟩
    rw [List.mem_append,mem_ite_singleton,mem_allFindings] at listed
    rcases listed with ⟨_,rfl⟩ | ⟨j,other,isOther,found⟩
    · cases index
    · have same : i = j := Option.some.inj (index.symm.trans (findingsOf_index found))
      subst same
      rw [Option.getD_some,is] at isOther
      cases isOther
      exact ⟨finding,found,index,code⟩
  · rintro ⟨finding,found,index,code⟩
    exact ⟨finding,List.mem_append_right _ (mem_allFindings.mpr ⟨i,body,is,found⟩),index,code⟩

/-- Of a module whose import, memory and code sections are well formed, a function that grows a memory is reported
    just if the scan knows every instruction before the first growth. -/
theorem growth_exact (wellFormed : WellFormed sections imports memories (some bodies)) {i : Nat} {body : List UInt8}
    (is : bodies[i]? = some body) {f : Function} (bytes : FunctionBytes f body) (grows : .memoryGrow ∈ f.tokens) :
    (∃ result, analyzeWasmBytecode (moduleBytes sections) = .ok result ∧ Reported i result.findings) ↔ Clear f.tokens := by
  obtain ⟨result,analysed,reported⟩ := noted_iff wellFormed is
  constructor
  · rintro ⟨result',analysed',isReported⟩
    rw [analysed] at analysed'
    cases analysed'
    by_contra unclear
    obtain ⟨scan,ended,unnoted⟩ := scan_missed bytes unclear
    have noted := reported.mp isReported scan ended
    rw [unnoted] at noted
    cases noted
  · intro clear
    exact ⟨result,analysed,reported.mpr fun scan ended => scan_noted bytes grows clear ended⟩

end Modules

/-! Two modules of a function that grows a memory, the one by a constant, the other behind a trap. -/

theorem number_byte {n : Nat} (small : n < 128) : Unsigned 32 n [n.toUInt8] := by
  have number : Unsigned 32 n (canonical n) := canonical_unsigned (by omega)
  rwa [canonical,if_pos small] at number

def growing : Function := ⟨[],[.plain (.i32Const 1),.memoryGrow,.plain .drop]⟩
def trapping : Function := ⟨[],[.unreachable,.memoryGrow,.plain .drop]⟩
def growingBody : List UInt8 := [0x00,0x41,0x01,0x40,0x00,0x1a,0x0b]
def trappingBody : List UInt8 := [0x00,0x00,0x40,0x00,0x1a,0x0b]

def oneFunction (code : Section) : List Section :=
  [⟨1,[0x01,0x60,0x00,0x00],by decide⟩,⟨3,[0x01,0x00],by decide⟩,⟨5,[0x01,0x00,0x01],by decide⟩,code]

def growingSections : List Section := oneFunction ⟨10,0x01 :: 0x07 :: growingBody,by decide⟩
def trappingSections : List Section := oneFunction ⟨10,0x01 :: 0x06 :: trappingBody,by decide⟩

theorem oneFunction_wellFormed {body contents : List UInt8} {fits : contents.length < 2 ^ 32} (vec : Vec Sized [body] contents) :
    WellFormed (oneFunction ⟨10,contents,fits⟩) none (some [⟨1,none⟩]) (some [body]) where
  imports := by simp [AtMostOnce,oneFunction]
  memories := by
    have one : Unsigned 32 1 [0x01] := number_byte (n := 1) (by decide)
    exact ⟨[_,_],_,[_],rfl,rfl,by simp,[0x01],[0x00,0x01] ++ [],one,.cons (.atLeast one) .nil,rfl⟩
  bodies := ⟨[_,_,_],_,[],rfl,rfl,by simp,vec⟩

theorem noLocals : Vec LocalsBytes [] [0x00] := ⟨[0x00],[],number_byte (n := 0) (by decide),.nil,rfl⟩
theorem drop_end : Items TokenBytes [.plain .drop,.end_] ([0x1a] ++ ([0x0b] ++ [])) :=
  .cons (.plain .drop) (.cons .end_ .nil)

theorem growing_bytes : FunctionBytes growing growingBody := by
  refine ⟨[0x00],[0x41,0x01] ++ ([0x40,0x00] ++ ([0x1a] ++ ([0x0b] ++ []))),noLocals,?_,rfl⟩
  have one : Signed 32 (0x01 : UInt8).toNat [0x01] := .nonneg (by decide) (by decide)
  exact .cons (.plain (.i32Const one)) (.cons .memoryGrow drop_end)

theorem trapping_bytes : FunctionBytes trapping trappingBody := by
  refine ⟨[0x00],[0x00] ++ ([0x40,0x00] ++ ([0x1a] ++ ([0x0b] ++ []))),noLocals,?_,rfl⟩
  exact .cons .unreachable (.cons .memoryGrow drop_end)

theorem one_sized {body : List UInt8} (short : body.length < 128) :
    Vec Sized [body] (0x01 :: body.length.toUInt8 :: body) := by
  refine ⟨[0x01],[body.length.toUInt8] ++ body ++ [],number_byte (n := 1) (by decide),?_,by simp⟩
  exact .cons ⟨[body.length.toUInt8],number_byte short,rfl⟩ .nil

/-- What a module with one function and a memory offers. -/
def oneFunctionContext : Context := ⟨[⟨[],none⟩],[⟨[],none⟩],false,true,[],[],[],[]⟩

theorem growing_valid : Valid oneFunctionContext ⟨[],none⟩ growing := by
  have dropped : ∀ c, TypedAll c [.plain .drop] ([] ++ [.i32]) [] := fun c =>
    .cons (.plain (.drop .i32)) (.nil c ([] ++ []))
  have grown : ∀ c : Context, c.memory = true → TypedAll c [.memoryGrow,.plain .drop] ([] ++ [.i32]) [] := fun c memory =>
    .cons (.memoryGrow memory) (dropped c)
  show TypedAll _ (.plain (.i32Const 1) :: _) ([] ++ []) []
  exact .cons (.plain (.i32Const 1)) (grown _ rfl)

theorem growth_missed :
    Valid oneFunctionContext ⟨[],none⟩ growing ∧ FunctionBytes growing growingBody ∧ .memoryGrow ∈ growing.tokens ∧
      WellFormed growingSections none (some [⟨1,none⟩]) (some [growingBody]) ∧
      ¬ ∃ result, analyzeWasmBytecode (moduleBytes growingSections) = .ok result ∧ Reported 0 result.findings := by
  have wellFormed : WellFormed growingSections none (some [⟨1,none⟩]) (some [growingBody]) :=
    oneFunction_wellFormed (one_sized (by decide))
  refine ⟨growing_valid,growing_bytes,by decide,wellFormed,?_⟩
  rintro ⟨result,analysed,reported⟩
  obtain ⟨result',analysed',iff⟩ := noted_iff wellFormed (i := 0) rfl
  rw [analysed] at analysed'
  cases analysed'
  have scan : scanFunctionBody growingBody = .ok ⟨false,false,false⟩ := by rfl
  have noted := iff.mp reported ⟨false,false,false⟩ scan
  cases noted

theorem growth_exact_trapping :
    ∃ result, analyzeWasmBytecode (moduleBytes trappingSections) = .ok result ∧ Reported 0 result.findings :=
  (growth_exact (oneFunction_wellFormed (one_sized (by decide))) rfl trapping_bytes (by decide)).mpr (by
    unfold Clear
    decide)

end StellarAlerts.GrowthScan
