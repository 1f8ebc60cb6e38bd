import StellarAlerts.OrderedMaps
import StellarAlerts.RiskScorer
import StellarAlerts.Utf16Text

/-!
The footprint that an envelope declares against the one that the host requires. A
required write goes unreported where it is also required to be read, or declared as
archived, unless another key gives the alarm (`writes_reported_iff`).
-/
namespace StellarAlerts.Footprints
open Numbers OrderedMaps RiskScorer Utf16Text

inductive FootprintAccess where
  | readOnly
  | readWrite
  | archived
deriving DecidableEq, Repr

structure FootprintKey where
  key : String
  entryType : String
  contractId : Option String
  access : FootprintAccess
deriving DecidableEq

def InBucket (access : FootprintAccess) (bucket : List FootprintKey) : Prop := ∀ k ∈ bucket, k.access = access

structure TransactionFootprint where
  readOnly : List FootprintKey
  readWrite : List FootprintKey
  archived : List FootprintKey
  readOnlyKeys : InBucket .readOnly readOnly
  readWriteKeys : InBucket .readWrite readWrite
  archivedKeys : InBucket .archived archived

/-- A footprint of which buckets may be missing. -/
structure PartialFootprint where
  readOnly : Option (List FootprintKey)
  readWrite : Option (List FootprintKey)
  archived : Option (List FootprintKey)
  readOnlyKeys : InBucket .readOnly (readOnly.getD [])
  readWriteKeys : InBucket .readWrite (readWrite.getD [])
  archivedKeys : InBucket .archived (archived.getD [])

inductive FootprintChange where
  | missing
  | unused
  | unchanged
  | modeChanged
deriving DecidableEq, Repr

structure FootprintDiffEntry where
  key : String
  entryType : String
  contractId : Option String
  change : FootprintChange
  declaredAccess : Option FootprintAccess
  requiredAccess : Option FootprintAccess
deriving DecidableEq

structure FootprintSummary where
  declaredReadOnly : Nat
  declaredReadWrite : Nat
  declaredArchived : Nat
  requiredReadOnly : Nat
  requiredReadWrite : Nat
  requiredArchived : Nat
  missingCount : Nat
  unusedCount : Nat
  modeChangedCount : Nat
  contractIdCount : Nat
deriving DecidableEq

structure FootprintDiff where
  entries : List FootprintDiffEntry
  summary : FootprintSummary
deriving DecidableEq

structure FootprintThreatThresholds where
  maxFootprintReadWriteKeys : Number
  footprintProbeContractThreshold : Number

inductive FootprintCode where
  | undeclaredFootprintAccess
  | footprintWriteDowngrade
  | unusedFootprintEntries
  | footprintOverPermission
  | unboundedFootprintGrowth
  | footprintKeyProbing
  | emptyFootprintWithInvocation
  | archivedKeyAccess
deriving DecidableEq, Repr

def normalizeFootprint : Option PartialFootprint → TransactionFootprint
  | none => ⟨[],[],[],nofun,nofun,nofun⟩
  | some f => ⟨f.readOnly.getD [],f.readWrite.getD [],f.archived.getD [],f.readOnlyKeys,f.readWriteKeys,f.archivedKeys⟩

def TransactionFootprint.keys (f : TransactionFootprint) : List FootprintKey := f.readOnly ++ f.readWrite ++ f.archived
def insertNew (index : OrderedMap String FootprintKey) (k : FootprintKey) : OrderedMap String FootprintKey :=
  if (index.get k.key).isSome then index else index.set k.key k
def indexFootprint (footprint : Option PartialFootprint) : OrderedMap String FootprintKey :=
  (normalizeFootprint footprint).keys.foldl insertNew .empty

def classify : Option FootprintKey → Option FootprintKey → FootprintChange
  | none, _ => .missing
  | some _, none => .unused
  | some declared, some required => if declared.access = required.access then .unchanged else .modeChanged

/-- The contracts of the keys, each once and in order. -/
def footprintContractIds (footprint : Option PartialFootprint) : List String :=
  sortTexts ((normalizeFootprint footprint).keys.filterMap fun k => k.contractId.filter fun id => id ≠ "").dedup

def diffEntry (declaredKey requiredKey : Option FootprintKey) (id : String) : FootprintDiffEntry :=
  let reference := requiredKey.or declaredKey
  { key := id
    entryType := (reference.map FootprintKey.entryType).getD ""
    contractId := (reference.bind FootprintKey.contractId).filter fun id => id ≠ ""
    change := classify declaredKey requiredKey
    declaredAccess := declaredKey.map FootprintKey.access
    requiredAccess := requiredKey.map FootprintKey.access }

def diffFootprints (declared required : Option PartialFootprint) : FootprintDiff :=
  let declaredNorm := normalizeFootprint declared
  let requiredNorm := normalizeFootprint required
  let declaredIndex := indexFootprint declared
  let requiredIndex := indexFootprint required
  let sortedIds := sortTexts (declaredIndex.keys ++ requiredIndex.keys).dedup
  let entries := sortedIds.map fun id => diffEntry (declaredIndex.get id) (requiredIndex.get id) id
  { entries
    summary :=
      { declaredReadOnly := declaredNorm.readOnly.length
        declaredReadWrite := declaredNorm.readWrite.length
        declaredArchived := declaredNorm.archived.length
        requiredReadOnly := requiredNorm.readOnly.length
        requiredReadWrite := requiredNorm.readWrite.length
        requiredArchived := requiredNorm.archived.length
        missingCount := entries.countP fun e => e.change = .missing
        unusedCount := entries.countP fun e => e.change = .unused
        modeChangedCount := entries.countP fun e => e.change = .modeChanged
        contractIdCount := (footprintContractIds declared).length } }

def isDeclaredWritable (footprint : Option PartialFootprint) (key : String) : Bool :=
  (normalizeFootprint footprint).readWrite.any fun k => k.key = key

def declaredAccessFor (footprint : Option PartialFootprint) (key : String) : Option FootprintAccess :=
  let f := normalizeFootprint footprint
  (((f.readWrite.find? fun k => k.key = key).or (f.readOnly.find? fun k => k.key = key)).or
    (f.archived.find? fun k => k.key = key)).map FootprintKey.access

def indicator (code : FootprintCode) (severity : RiskSeverity) (weight : ℚ) : RiskIndicator FootprintCode :=
  ⟨code,severity,.finite weight⟩
def given (found : Bool) (i : RiskIndicator FootprintCode) : List (RiskIndicator FootprintCode) := if found then [i] else []

/-- `n > x`. -/
def exceeds (n : Nat) : Number → Bool
  | .nan => false
  | .infinite negative => negative
  | .finite q => q < n

def writeDowngrade (e : FootprintDiffEntry) : Bool := e.change = .missing && e.requiredAccess = some .readWrite
def modeDowngrade (e : FootprintDiffEntry) : Bool :=
  e.change = .modeChanged && e.declaredAccess = some .readOnly && e.requiredAccess = some .readWrite
def overPermissive (e : FootprintDiffEntry) : Bool :=
  e.change = .modeChanged && e.declaredAccess = some .readWrite && e.requiredAccess = some .readOnly
def archivedKey (e : FootprintDiffEntry) : Bool := e.declaredAccess = some .archived || e.requiredAccess = some .archived
def isEmptyFootprint (footprint : Option PartialFootprint) : Bool := (normalizeFootprint footprint).keys.isEmpty

def analyzeFootprintThreats (diff : FootprintDiff) (declaredFootprint : Option PartialFootprint) (hasInvocation : Bool)
    (thresholds : FootprintThreatThresholds) : List (RiskIndicator FootprintCode) :=
  given (diff.entries.any fun e => e.change = .missing)
    (if diff.entries.any writeDowngrade then indicator .undeclaredFootprintAccess .critical 35
      else indicator .undeclaredFootprintAccess .medium 14) ++
  given (diff.entries.any modeDowngrade) (indicator .footprintWriteDowngrade .critical 34) ++
  given (diff.entries.any fun e => e.change = .unused) (indicator .unusedFootprintEntries .low 5) ++
  given (diff.entries.any overPermissive) (indicator .footprintOverPermission .medium 10) ++
  given (exceeds diff.summary.declaredReadWrite thresholds.maxFootprintReadWriteKeys)
    (indicator .unboundedFootprintGrowth .high 26) ++
  given (reaches (footprintContractIds declaredFootprint).length thresholds.footprintProbeContractThreshold)
    (indicator .footprintKeyProbing .high 22) ++
  given (hasInvocation && declaredFootprint.isSome && isEmptyFootprint declaredFootprint)
    (indicator .emptyFootprintWithInvocation .high 24) ++
  given (diff.entries.any archivedKey)
    (if diff.entries.any fun e => archivedKey e && e.change = .unused then indicator .archivedKeyAccess .high 20
      else indicator .archivedKeyAccess .medium 12)

section Access

def lists (bucket : List FootprintKey) (id : String) : Bool := bucket.any fun k => k.key = id

theorem foldl_insertNew (keys : List FootprintKey) (index : OrderedMap String FootprintKey) (id : String) :
    (keys.foldl insertNew index).get id = (index.get id).or (keys.find? fun k => k.key = id) := by
  induction keys generalizing index with
  | nil => simp
  | cons k rest ih =>
    rw [List.foldl_cons,ih,insertNew,List.find?_cons]
    by_cases own : k.key = id
    · subst own
      cases found : index.get k.key with
      | none => simp [get_set]
      | some old => simp [found]
    · cases found : index.get k.key with
      | none => simp [get_set,own,Ne.symm own]
      | some old => simp [own]

theorem index_get (footprint : Option PartialFootprint) (id : String) :
    (indexFootprint footprint).get id = (normalizeFootprint footprint).keys.find? fun k => k.key = id := by
  rw [indexFootprint,foldl_insertNew,get_empty,Option.none_or]

theorem bucket_access {access : FootprintAccess} {bucket : List FootprintKey} (inBucket : InBucket access bucket) (id : String) :
    (bucket.find? fun k => k.key = id).map FootprintKey.access = if lists bucket id then some access else none := by
  cases found : bucket.find? fun k => k.key = id with
  | none =>
    have absent : lists bucket id = false := by simpa [lists] using found
    rw [absent]
    rfl
  | some k =>
    have listed := List.mem_of_find?_eq_some found
    have own : k.key = id := by simpa using List.find?_some found
    have there : lists bucket id = true := List.any_eq_true.mpr ⟨k,listed,by simpa using own⟩
    rw [there,Option.map_some,inBucket k listed]
    rfl

/-- The index takes reads before writes. -/
theorem access_index (footprint : Option PartialFootprint) (id : String) :
    ((indexFootprint footprint).get id).map FootprintKey.access =
      if lists (normalizeFootprint footprint).readOnly id then some .readOnly
      else if lists (normalizeFootprint footprint).readWrite id then some .readWrite
      else if lists (normalizeFootprint footprint).archived id then some .archived else none := by
  rw [index_get,TransactionFootprint.keys,List.find?_append,List.find?_append,Option.map_or,Option.map_or,
    bucket_access (normalizeFootprint footprint).readOnlyKeys,bucket_access (normalizeFootprint footprint).readWriteKeys,
    bucket_access (normalizeFootprint footprint).archivedKeys]
  cases lists (normalizeFootprint footprint).readOnly id <;> cases lists (normalizeFootprint footprint).readWrite id <;> rfl

theorem declaredAccessFor_eq (footprint : Option PartialFootprint) (id : String) :
    declaredAccessFor footprint id =
      if lists (normalizeFootprint footprint).readWrite id then some .readWrite
      else if lists (normalizeFootprint footprint).readOnly id then some .readOnly
      else if lists (normalizeFootprint footprint).archived id then some .archived else none := by
  simp only [declaredAccessFor]
  rw [Option.map_or,Option.map_or,bucket_access (normalizeFootprint footprint).readOnlyKeys,
    bucket_access (normalizeFootprint footprint).readWriteKeys,bucket_access (normalizeFootprint footprint).archivedKeys]
  cases lists (normalizeFootprint footprint).readOnly id <;> cases lists (normalizeFootprint footprint).readWrite id <;> rfl

/-- A key that is in no bucket. -/
def undeclared (footprint : Option PartialFootprint) (id : String) : Bool :=
  !lists (normalizeFootprint footprint).readOnly id && !lists (normalizeFootprint footprint).readWrite id &&
    !lists (normalizeFootprint footprint).archived id

theorem index_isSome (footprint : Option PartialFootprint) (id : String) :
    ((indexFootprint footprint).get id).isSome = !undeclared footprint id := by
  rw [← Option.isSome_map (f := FootprintKey.access),access_index,undeclared]
  cases lists (normalizeFootprint footprint).readOnly id <;> cases lists (normalizeFootprint footprint).readWrite id <;>
    cases lists (normalizeFootprint footprint).archived id <;> rfl

theorem declaredAccess_agrees_iff (footprint : Option PartialFootprint) :
    (∀ id, undeclared footprint id = false →
      declaredAccessFor footprint id = ((indexFootprint footprint).get id).map FootprintKey.access) ↔
      ∀ id, ¬(lists (normalizeFootprint footprint).readOnly id = true ∧ lists (normalizeFootprint footprint).readWrite id = true) := by
  simp only [access_index,declaredAccessFor_eq,undeclared]
  refine forall_congr' fun id => ?_
  cases lists (normalizeFootprint footprint).readOnly id <;> cases lists (normalizeFootprint footprint).readWrite id <;>
    cases lists (normalizeFootprint footprint).archived id <;> decide

end Access

section Reports
variable {declared required footprint : Option PartialFootprint} {hasInvocation : Bool} {thresholds : FootprintThreatThresholds}

theorem any_entries {p : FootprintDiffEntry → Bool} :
    (diffFootprints declared required).entries.any p = true ↔
      ∃ id, (undeclared declared id = false ∨ undeclared required id = false) ∧
        p (diffEntry ((indexFootprint declared).get id) ((indexFootprint required).get id) id) = true := by
  have inKeys : ∀ (f : Option PartialFootprint) (id : String), id ∈ (indexFootprint f).keys ↔ undeclared f id = false := by
    intro f id
    rw [mem_keys_iff,← Option.isSome_iff_exists,index_isSome]
    simp
  simp only [diffFootprints,List.any_map,List.any_eq_true,mem_sortTexts,List.mem_dedup,List.mem_append,inKeys]
  rfl

theorem mem_given {found : Bool} {i j : RiskIndicator FootprintCode} : j ∈ given found i ↔ found = true ∧ j = i := by
  cases found <;> simp [given]

theorem critical_iff (diff : FootprintDiff) :
    (∃ i ∈ analyzeFootprintThreats diff footprint hasInvocation thresholds, i.severity = .critical) ↔
      diff.entries.any writeDowngrade = true ∨ diff.entries.any modeDowngrade = true := by
  have downgradeMissing : diff.entries.any writeDowngrade = true → diff.entries.any (fun e => e.change = .missing) = true := by
    intro some_
    obtain ⟨e,listed,downgrade⟩ := List.any_eq_true.mp some_
    refine List.any_eq_true.mpr ⟨e,listed,?_⟩
    simp only [writeDowngrade,Bool.and_eq_true] at downgrade
    exact downgrade.1
  simp only [analyzeFootprintThreats,List.mem_append,mem_given]
  constructor
  · rintro ⟨i,((((((⟨_,rfl⟩ | ⟨downgrade,rfl⟩) | ⟨_,rfl⟩) | ⟨_,rfl⟩) | ⟨_,rfl⟩) | ⟨_,rfl⟩) | ⟨_,rfl⟩) | ⟨_,rfl⟩,critical⟩
    · split at critical
      · left; assumption
      · cases critical
    · exact .inr downgrade
    · cases critical
    · cases critical
    · cases critical
    · cases critical
    · cases critical
    · split at critical <;> cases critical
  · rintro (downgrade | downgrade)
    · refine ⟨indicator .undeclaredFootprintAccess .critical 35,?_,rfl⟩
      simp [downgradeMissing downgrade,downgrade]
    · refine ⟨indicator .footprintWriteDowngrade .critical 34,?_,rfl⟩
      simp [downgrade]

/-- The index of a footprint has a key as written. -/
def writes (footprint : Option PartialFootprint) (id : String) : Bool :=
  lists (normalizeFootprint footprint).readWrite id && !lists (normalizeFootprint footprint).readOnly id

theorem access_write (footprint : Option PartialFootprint) (id : String) :
    ((indexFootprint footprint).get id).map FootprintKey.access = some .readWrite ↔ writes footprint id = true := by
  rw [access_index,writes]
  cases lists (normalizeFootprint footprint).readOnly id <;> cases lists (normalizeFootprint footprint).readWrite id <;>
    cases lists (normalizeFootprint footprint).archived id <;> decide

theorem access_read (footprint : Option PartialFootprint) (id : String) :
    ((indexFootprint footprint).get id).map FootprintKey.access = some .readOnly ↔
      lists (normalizeFootprint footprint).readOnly id = true := by
  rw [access_index]
  cases lists (normalizeFootprint footprint).readOnly id <;> cases lists (normalizeFootprint footprint).readWrite id <;>
    cases lists (normalizeFootprint footprint).archived id <;> decide

theorem declared_of_writes {id : String} (isWritten : writes footprint id = true) : undeclared footprint id = false := by
  simp only [writes,Bool.and_eq_true] at isWritten
  simp [undeclared,isWritten.1]

theorem any_writeDowngrade :
    (diffFootprints declared required).entries.any writeDowngrade = true ↔
      ∃ id, writes required id = true ∧ undeclared declared id = true := by
  have missing : ∀ id, (diffEntry ((indexFootprint declared).get id) ((indexFootprint required).get id) id).change = .missing ↔
      undeclared declared id = true := by
    intro id
    have isSome := index_isSome declared id
    cases found : (indexFootprint declared).get id with
    | none =>
      rw [found] at isSome
      simpa [diffEntry,classify] using isSome
    | some k =>
      rw [found] at isSome
      have isDeclared : undeclared declared id = false := by simpa using isSome
      rw [isDeclared]
      cases (indexFootprint required).get id with
      | none => simp [diffEntry,classify]
      | some k' =>
        simp only [diffEntry,classify]
        split <;> simp
  rw [any_entries]
  refine exists_congr fun id => ?_
  simp only [writeDowngrade,Bool.and_eq_true,decide_eq_true_eq,missing]
  have written : (diffEntry ((indexFootprint declared).get id) ((indexFootprint required).get id) id).requiredAccess =
      some .readWrite ↔ writes required id = true := access_write required id
  rw [written]
  constructor
  · rintro ⟨_,isMissing,isWritten⟩
    exact ⟨isWritten,isMissing⟩
  · rintro ⟨isWritten,isMissing⟩
    exact ⟨.inr (declared_of_writes isWritten),isMissing,isWritten⟩

theorem any_modeDowngrade :
    (diffFootprints declared required).entries.any modeDowngrade = true ↔
      ∃ id, writes required id = true ∧ lists (normalizeFootprint declared).readOnly id = true := by
  rw [any_entries]
  refine exists_congr fun id => ?_
  have isRead : (diffEntry ((indexFootprint declared).get id) ((indexFootprint required).get id) id).declaredAccess =
      some .readOnly ↔ lists (normalizeFootprint declared).readOnly id = true := access_read declared id
  have isWritten : (diffEntry ((indexFootprint declared).get id) ((indexFootprint required).get id) id).requiredAccess =
      some .readWrite ↔ writes required id = true := access_write required id
  simp only [modeDowngrade,Bool.and_eq_true,decide_eq_true_eq,isRead,isWritten]
  constructor
  · rintro ⟨_,⟨_,read⟩,written⟩
    exact ⟨written,read⟩
  · rintro ⟨written,read⟩
    refine ⟨.inr (declared_of_writes written),⟨?_,read⟩,written⟩
    obtain ⟨k,found,own⟩ := Option.map_eq_some_iff.mp ((access_read declared id).mpr read)
    obtain ⟨k',found',own'⟩ := Option.map_eq_some_iff.mp ((access_write required id).mpr written)
    simp [diffEntry,found,found',classify,own,own']

/-- Every under-declared write makes a critical indicator and the two accesses agree if and only if no required write is under-declared,
    or one is that is not also a required read, of a key that is declared as read or not at all, and no key is declared both ways. -/
theorem writes_reported_iff (declared required footprint : Option PartialFootprint) (hasInvocation : Bool)
    (thresholds : FootprintThreatThresholds) :
    ((∀ k ∈ (normalizeFootprint required).readWrite, isDeclaredWritable declared k.key = false →
        ∃ i ∈ analyzeFootprintThreats (diffFootprints declared required) footprint hasInvocation thresholds,
          i.severity = .critical) ∧
      ∀ id, undeclared declared id = false →
        declaredAccessFor declared id = ((indexFootprint declared).get id).map FootprintKey.access) ↔
      ((∀ k ∈ (normalizeFootprint required).readWrite, isDeclaredWritable declared k.key = true) ∨
        ∃ k ∈ (normalizeFootprint required).readWrite, lists (normalizeFootprint required).readOnly k.key = false ∧
          (lists (normalizeFootprint declared).readOnly k.key = true ∨ undeclared declared k.key = true)) ∧
      ∀ id, ¬(lists (normalizeFootprint declared).readOnly id = true ∧
        lists (normalizeFootprint declared).readWrite id = true) := by
  refine and_congr ?_ (declaredAccess_agrees_iff declared)
  rw [critical_iff,any_writeDowngrade,any_modeDowngrade]
  have alarm : ((∃ id, writes required id = true ∧ undeclared declared id = true) ∨
      ∃ id, writes required id = true ∧ lists (normalizeFootprint declared).readOnly id = true) ↔
      ∃ k ∈ (normalizeFootprint required).readWrite, lists (normalizeFootprint required).readOnly k.key = false ∧
        (lists (normalizeFootprint declared).readOnly k.key = true ∨ undeclared declared k.key = true) := by
    rw [← exists_or]
    constructor
    · rintro ⟨id,either⟩
      have isWritten : writes required id = true := either.elim And.left And.left
      simp only [writes,Bool.and_eq_true,Bool.not_eq_true'] at isWritten
      obtain ⟨k,listed,own⟩ := List.any_eq_true.mp isWritten.1
      obtain rfl : k.key = id := by simpa using own
      exact ⟨k,listed,isWritten.2,either.elim (fun missing => .inr missing.2) fun read => .inl read.2⟩
    · rintro ⟨k,listed,unread,either⟩
      have isWritten : writes required k.key = true := by
        have written : lists (normalizeFootprint required).readWrite k.key = true := List.any_eq_true.mpr ⟨k,listed,by simp⟩
        simp [writes,written,unread]
      exact ⟨k.key,either.elim (fun read => .inr ⟨isWritten,read⟩) fun missing => .inl ⟨isWritten,missing⟩⟩
  rw [alarm]
  constructor
  · intro reported
    by_cases writable : ∀ k ∈ (normalizeFootprint required).readWrite, isDeclaredWritable declared k.key = true
    · exact .inl writable
    · obtain ⟨k,listed,unwritable⟩ : ∃ k ∈ (normalizeFootprint required).readWrite, ¬isDeclaredWritable declared k.key = true := by
        by_contra none_
        exact writable fun k listed => by_contra fun unwritable => none_ ⟨k,listed,unwritable⟩
      exact .inr (reported k listed (by simpa using unwritable))
  · rintro (writable | some_) k listed unwritable
    · rw [writable k listed] at unwritable
      cases unwritable
    · exact some_

end Reports

def dataKey (access : FootprintAccess) : FootprintKey := ⟨"contractData:C","contractData",none,access⟩
def readDeclared : Option PartialFootprint :=
  some ⟨some [dataKey .readOnly],none,none,by simp [InBucket,dataKey],nofun,nofun⟩

/-- The key is read and written. -/
def bothRequired : Option PartialFootprint :=
  some ⟨some [dataKey .readOnly],some [dataKey .readWrite],none,by simp [InBucket,dataKey],by simp [InBucket,dataKey],nofun⟩

/-- A required write of a key that is declared as read is not reported where the key is required to be read, too. -/
theorem write_unreported :
    lists (normalizeFootprint bothRequired).readWrite "contractData:C" = true ∧
      isDeclaredWritable readDeclared "contractData:C" = false ∧
      ¬∃ i ∈ analyzeFootprintThreats (diffFootprints readDeclared bothRequired) readDeclared true ⟨.finite 20,.finite 5⟩,
        i.severity = .critical := by
  have unwritten : ∀ id, writes bothRequired id = false := by
    intro id
    simp [writes,lists,normalizeFootprint,bothRequired,dataKey]
  refine ⟨by decide,by decide,?_⟩
  rw [critical_iff,any_writeDowngrade,any_modeDowngrade]
  simp [unwritten]

end StellarAlerts.Footprints
