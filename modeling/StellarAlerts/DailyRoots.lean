import StellarAlerts.ChecksumChain
import StellarAlerts.MerkleCommitment
import StellarAlerts.SeparatedText

/-!
The daily roots over the checksum chain: the payload hashes that were appended on
one day, in the order of their sequence, as leaves of one tree whose root is
stored under the date. Roots of days whose payments differ are different
(`merkleRoot_commits`), and a payment that is accepted against a stored root belongs
to a day that is as it was (`verifyPaymentInDailyRoot_exact`).
-/
namespace StellarAlerts.DailyRoots
open ChecksumChain HexText Histories Merkle PairedLayers
open SeparatedText (cut_at)
open Sha256 UniqueTables

def dayLength : Nat := 86400000

/-- A number with leading zeros. -/
def zeroPadded (width n : Nat) : String :=
  String.ofList (List.replicate (width - (toString n).length) '0') ++ toString n

/-- `date.toISOString().slice(0, 10)`, in the years of four digits. Years begin with
    March here, so that the day that some of them have more is their last. -/
def utcDayString (date : Nat) : String :=
  let days := date / dayLength + 719468
  let era := days / 146097
  let dayOfEra := days % 146097
  let yearOfEra := (dayOfEra - dayOfEra / 1460 + dayOfEra / 36524 - dayOfEra / 146096) / 365
  let dayOfYear := dayOfEra - (365 * yearOfEra + yearOfEra / 4 - yearOfEra / 100)
  let fromMarch := (5 * dayOfYear + 2) / 153
  let day := dayOfYear - (153 * fromMarch + 2) / 5 + 1
  let month := if fromMarch < 10 then fromMarch + 3 else fromMarch - 9
  let year := 400 * era + yearOfEra + if month ≤ 2 then 1 else 0
  zeroPadded 4 year ++ "-" ++ zeroPadded 2 month ++ "-" ++ zeroPadded 2 day

example : utcDayString 1709210096123 = "2024-02-29" := by decide +kernel

structure DailyMerkleRootResult where
  date : String
  merkleRoot : String
  leafCount : Nat
deriving DecidableEq, Repr

structure DailyChecksumRoot where
  date : String
  merkleRoot : String
  leafCount : Nat
  computedAt : Nat
deriving DecidableEq, Repr

/-- The rows that were created on the day, `orderBy: { sequence: 'asc' }`. -/
def dayRows (rows : List PaymentChecksum) (day : Nat) : List PaymentChecksum :=
  let dayStart := day / dayLength * dayLength
  let dayEnd := dayStart + (dayLength - 1)
  inSequence (rows.filter fun row => dayStart ≤ row.createdAt && row.createdAt ≤ dayEnd)

def leavesOf (rows : List PaymentChecksum) : List (List UInt8) := rows.map fun row => fromHex row.payloadHash

/-- The upsert on the unique column `date`. -/
def upsertRoot (roots : List DailyChecksumRoot) (row : DailyChecksumRoot) : List DailyChecksumRoot :=
  if roots.any fun stored => stored.date == row.date then
    roots.map fun stored => if stored.date == row.date then row else stored
  else roots ++ [row]

/-- `dailyChecksumRoot.findUnique({ where: { date } })`. -/
def findRoot (roots : List DailyChecksumRoot) (date : String) : Option DailyChecksumRoot :=
  roots.find? fun stored => stored.date == date

def computeDailyMerkleRoot (rows : List PaymentChecksum) (roots : List DailyChecksumRoot) (day now : Nat) :
    Except String (Option DailyMerkleRootResult × List DailyChecksumRoot) :=
  let dateStr := utcDayString day
  let batch := dayRows rows day
  if batch.length = 0 then .ok (none,roots)
  else
    match buildMerkleTree (leavesOf batch) with
    | .error err => .error err
    | .ok tree =>
      .ok (some ⟨dateStr,tree.root,batch.length⟩,upsertRoot roots ⟨dateStr,tree.root,batch.length,now⟩)

def verifyPaymentInDailyRoot (rows : List PaymentChecksum) (roots : List DailyChecksumRoot) (paymentId : String)
    (day : Nat) : Except String Bool :=
  match rows.find? (fun row => row.paymentId == paymentId), findRoot roots (utcDayString day) with
  | some target, some storedRoot =>
    let batch := dayRows rows day
    match batch.findIdx? (fun row => row.id == target.id) with
    | none => .ok false
    | some leafIndex =>
      match buildMerkleTree (leavesOf batch) with
      | .error err => .error err
      | .ok tree =>
        match generateMerkleProof tree leafIndex with
        | .error err => .error err
        | .ok proofPath =>
          .ok (verifyMerkleProof ⟨hashMerkleLeaf ((leavesOf batch).getD leafIndex []),proofPath⟩ storedRoot.merkleRoot)
  | _, _ => .ok false

@[simp] theorem findRoot_upsertRoot (roots : List DailyChecksumRoot) (row : DailyChecksumRoot) :
    findRoot (upsertRoot roots row) row.date = some row := by
  unfold findRoot upsertRoot
  by_cases held : roots.any (fun stored => stored.date == row.date) = true
  · rw [if_pos held]
    induction roots with
    | nil => simp at held
    | cons first rest ih =>
      by_cases same : first.date == row.date
      · rw [List.map_cons,if_pos same]
        exact List.find?_cons_of_pos (by simp)
      · simp only [List.any_cons,same,Bool.false_or] at held
        rw [List.map_cons,if_neg same]
        rw [List.find?_cons_of_neg (by simpa using same),ih held]
  · rw [if_neg held]
    have absent : roots.find? (fun stored => stored.date == row.date) = none := by simpa using held
    simp [List.find?_append,absent]

theorem computeDailyMerkleRoot_some {rows : List PaymentChecksum} {roots stored : List DailyChecksumRoot} {day now : Nat}
    {result : DailyMerkleRootResult} (computed : computeDailyMerkleRoot rows roots day now = .ok (some result,stored)) :
    leavesOf (dayRows rows day) ≠ [] ∧
      findRoot stored (utcDayString day) =
        some ⟨utcDayString day,rootOf (leavesOf (dayRows rows day)),(dayRows rows day).length,now⟩ := by
  unfold computeDailyMerkleRoot at computed
  by_cases empty : (dayRows rows day).length = 0
  · simp [empty] at computed
  · have some_ : leavesOf (dayRows rows day) ≠ [] := by simpa [leavesOf] using empty
    simp only [empty,↓reduceIte,buildMerkleTree_eq some_,Except.ok.injEq,Prod.mk.injEq] at computed
    refine ⟨some_,?_⟩
    rw [← computed.2]
    exact findRoot_upsertRoot roots ⟨utcDayString day,_,_,now⟩

/-- The text that `computePayloadHash` hashes. -/
def payloadText (payment : ChainablePayment) : String :=
  "|".intercalate
    [payment.id,payment.walletId,payment.txHash,payment.fromAddress,payment.amount,payment.asset,
     payment.assetIssuer.getD "N/A",payment.memo.getD "N/A",payment.receivedAt]

theorem computePayloadHash_eq (payment : ChainablePayment) :
    computePayloadHash payment = toHex (sha256 (utf8 (payloadText payment))) := rfl

def appended (events : List Event) : List ChainablePayment :=
  events.filterMap fun
    | .appendPaymentChecksum _ payment => some payment
    | .move _ _ => none

def ChecksumOf (payments : List ChainablePayment) (row : PaymentChecksum) : Prop :=
  ∃ payment ∈ payments, row.paymentId = payment.id ∧ row.payloadHash = computePayloadHash payment

/-- Every row, committed or about to be, is the checksum of one of the payments. -/
def Checksums (payments : List ChainablePayment) (s : System) : Prop :=
  (∀ row ∈ s.db.paymentChecksum.rows, ChecksumOf payments row) ∧
    ∀ c call, s.calls c = some call → call.payment ∈ payments ∧
      ∀ n snapshot row, call.phase = .inserted n snapshot row → ChecksumOf payments row

variable {payments : List ChainablePayment}

theorem checksumOf_newRow {payment : ChainablePayment} (listed : payment ∈ payments) (snapshot : List PaymentChecksum)
    (sequence : Nat) (id : String) (now : Nat) : ChecksumOf payments (newRow payment snapshot sequence id now) :=
  ⟨payment,listed,rfl,rfl⟩

theorem advance_rows {db : Database} {payment : ChainablePayment} {phase : Phase} {m : Move} {row : PaymentChecksum}
    (member : row ∈ (advance db payment phase m).1.paymentChecksum.rows) :
    row ∈ db.paymentChecksum.rows ∨ ∃ n snapshot, phase = .inserted n snapshot row := by
  cases phase with
  | inserted n snapshot last =>
    cases m with
    | commit lost =>
      by_cases same : db.paymentChecksum.rows = snapshot
      · cases inserted : db.paymentChecksum.insert last with
        | none =>
          simp only [advance,same,inserted,↓reduceIte] at member
          exact .inl (same ▸ member)
        | some table =>
          simp only [advance,same,inserted,↓reduceIte,insert_rows inserted,List.mem_append,List.mem_singleton] at member
          rcases member with old | rfl
          · exact .inl (same ▸ old)
          · exact .inr ⟨n,snapshot,rfl⟩
      · simp only [advance,same,↓reduceIte] at member
        exact .inl member
    | _ => exact .inl member
  | read n snapshot =>
    cases m with
    | create id now =>
      simp only [advance] at member
      split at member <;> exact .inl member
    | _ => exact .inl member
  | looking n err =>
    cases m with
    | findUnique =>
      simp only [advance] at member
      split at member <;> exact .inl member
    | _ => exact .inl member
  | attempt n => cases m <;> exact .inl member
  | returned chainHash => cases m <;> exact .inl member
  | thrown => cases m <;> exact .inl member

theorem retry_not_inserted {attempt n : Nat} {err : Failure} {snapshot : List PaymentChecksum} {row : PaymentChecksum}
    (same : Phase.retry attempt err = .inserted n snapshot row) : False := by
  unfold Phase.retry at same
  split at same <;> cases same

theorem caught_not_inserted {attempt n : Nat} {err : Failure} {snapshot : List PaymentChecksum} {row : PaymentChecksum}
    (same : Phase.caught attempt err = .inserted n snapshot row) : False := by
  unfold Phase.caught at same
  split at same
  · cases same
  · exact retry_not_inserted same

theorem advance_inserted {db : Database} {payment : ChainablePayment} {phase : Phase} {m : Move} {n : Nat}
    {snapshot : List PaymentChecksum} {row : PaymentChecksum}
    (inserted : (advance db payment phase m).2 = .inserted n snapshot row) :
    phase = .inserted n snapshot row ∨ ∃ seen sequence id now, row = newRow payment seen sequence id now := by
  cases phase with
  | inserted k seen last =>
    cases m with
    | commit lost =>
      simp only [advance] at inserted
      split at inserted
      · split at inserted
        · cases lost with
          | none => cases inserted
          | some err => exact (caught_not_inserted inserted).elim
        · exact (@caught_not_inserted k n uniqueViolation snapshot row inserted).elim
      · exact (@caught_not_inserted k n serializationFailure snapshot row inserted).elim
    | fail err => exact (caught_not_inserted inserted).elim
    | _ => exact .inl inserted
  | read k seen =>
    cases m with
    | create id now =>
      simp only [advance] at inserted
      split at inserted
      · exact (@caught_not_inserted k n uniqueViolation snapshot row inserted).elim
      · injection inserted with _ _ rowIs
        exact .inr ⟨seen,_,id,now,rowIs.symm⟩
    | fail err => exact (caught_not_inserted inserted).elim
    | _ => cases inserted
  | looking k err =>
    cases m with
    | findUnique =>
      simp only [advance] at inserted
      split at inserted
      · cases inserted
      · exact (retry_not_inserted inserted).elim
    | _ => cases inserted
  | attempt k =>
    cases m with
    | fail err => exact (caught_not_inserted inserted).elim
    | _ => cases inserted
  | returned chainHash => cases m <;> cases inserted
  | thrown => cases m <;> cases inserted

theorem checksums_step (s : System) (event : Event) (listed : ∀ c payment, event = .appendPaymentChecksum c payment →
    payment ∈ payments) (holds : Checksums payments s) : Checksums payments (step s event).2 := by
  obtain ⟨rows,calls⟩ := holds
  cases event with
  | appendPaymentChecksum c payment =>
    refine ⟨rows,?_⟩
    intro d call found
    by_cases same : d = c
    · simp only [step,System.put,same,↓reduceIte,Option.some.injEq] at found
      subst found
      exact ⟨listed c payment rfl,fun n snapshot row phase => by cases phase⟩
    · simp only [step,System.put,same,↓reduceIte] at found
      exact calls d call found
  | move c m =>
    cases found : s.calls c with
    | none =>
      simp only [step,found]
      exact ⟨rows,calls⟩
    | some call =>
      obtain ⟨known,inserting⟩ := calls c call found
      simp only [step,found]
      refine ⟨?_,?_⟩
      · intro row member
        rcases advance_rows member with old | ⟨n,snapshot,phase⟩
        · exact rows row old
        · exact inserting n snapshot row phase
      · intro d other there
        by_cases same : d = c
        · simp only [System.put,same,↓reduceIte,Option.some.injEq] at there
          subst there
          refine ⟨known,?_⟩
          intro n snapshot row phase
          rcases advance_inserted phase with before | ⟨seen,sequence,id,now,rfl⟩
          · exact inserting n snapshot row before
          · exact checksumOf_newRow known seen sequence id now
        · simp only [System.put,same,↓reduceIte] at there
          exact calls d other there

theorem checksums_run (events : List Event) : Checksums (appended events) (run step System.start events) := by
  have empty : Checksums (appended events) System.start :=
    ⟨fun row member => (by cases member),fun c call found => (by cases found)⟩
  refine run_inv_of_mem ?_ empty
  intro s event listed holds
  refine checksums_step s event ?_ holds
  rintro c payment rfl
  exact List.mem_filterMap.mpr ⟨_,listed,rfl⟩

theorem payloadText_toList (payment : ChainablePayment) :
    ∃ rest, (payloadText payment).toList = payment.id.toList ++ '|' :: rest := by
  simp only [payloadText,String.intercalate_cons_cons,String.toList_append,List.append_assoc]
  exact ⟨_,rfl⟩

theorem id_of_payloadText {a b : ChainablePayment} (plainA : '|' ∉ a.id.toList) (plainB : '|' ∉ b.id.toList)
    (same : payloadText a = payloadText b) : a.id = b.id := by
  obtain ⟨restA,textA⟩ := payloadText_toList a
  obtain ⟨restB,textB⟩ := payloadText_toList b
  rw [same,textB] at textA
  exact String.toList_injective (cut_at plainB plainA textA).1.symm

def rowsAfter (events : List Event) : List PaymentChecksum := (run step System.start events).db.paymentChecksum.rows

/-- The messages hashed for the payloads of a run and for the tree of a day. -/
def dayMessages (events : List Event) (day : Nat) : List (List UInt8) :=
  (appended events).map (fun payment => utf8 (payloadText payment)) ++
    treeMessages (leavesOf (dayRows (rowsAfter events) day))

/-- The ids of payments, made by the database, hold no separator. -/
def PlainIds (events : List Event) : Prop := ∀ payment ∈ appended events, '|' ∉ payment.id.toList

theorem mem_dayRows {rows : List PaymentChecksum} {day : Nat} {row : PaymentChecksum} (member : row ∈ dayRows rows day) :
    row ∈ rows := by
  rw [dayRows,inSequence,List.mem_insertionSort] at member
  exact (List.mem_filter.mp member).1

theorem dayRows_ids (events : List Event) (day : Nat) :
    ((dayRows (rowsAfter events) day).map PaymentChecksum.paymentId).Nodup := by
  have all : ((rowsAfter events).map PaymentChecksum.paymentId).Nodup := by
    rw [List.Nodup,List.pairwise_map]
    exact (run step System.start events).db.paymentChecksum.unique.imp fun apart same => by simp [samePayment,same] at apart
  refine ((List.perm_insertionSort _ _).map PaymentChecksum.paymentId).nodup_iff.mpr ?_
  exact all.sublist (List.filter_sublist.map PaymentChecksum.paymentId)

theorem leaves_written (events : List Event) (day : Nat) :
    (dayRows (rowsAfter events) day).map PaymentChecksum.payloadHash =
      (leavesOf (dayRows (rowsAfter events) day)).map toHex := by
  rw [leavesOf,List.map_map]
  apply List.map_congr_left
  intro row member
  obtain ⟨payment,_,_,hashed⟩ := (checksums_run events).1 row (mem_dayRows member)
  simp [hashed,computePayloadHash_eq]

theorem leaves_nodup {events : List Event} {day : Nat} (plain : PlainIds events)
    (free : CollisionFree (dayMessages events day)) : (leavesOf (dayRows (rowsAfter events) day)).Nodup := by
  have ids := dayRows_ids events day
  rw [List.Nodup,List.pairwise_map] at ids
  rw [leavesOf,List.Nodup,List.pairwise_map]
  refine ids.imp_of_mem ?_
  intro a b inA inB apart same
  obtain ⟨p,listedP,idP,hashP⟩ := (checksums_run events).1 a (mem_dayRows inA)
  obtain ⟨q,listedQ,idQ,hashQ⟩ := (checksums_run events).1 b (mem_dayRows inB)
  rw [hashP,hashQ,computePayloadHash_eq,computePayloadHash_eq,fromHex_toHex,fromHex_toHex] at same
  have hashed : ∀ payment ∈ appended events, utf8 (payloadText payment) ∈ dayMessages events day :=
    fun payment listed => List.mem_append_left _ (List.mem_map.mpr ⟨payment,listed,rfl⟩)
  have texts := utf8_injective (free (hashed p listedP) (hashed q listedQ) same)
  have equal := id_of_payloadText (plain p listedP) (plain q listedQ) texts
  exact apart (by rw [idP,idQ,equal])

/-- A root is that of the leaves filled up with repetitions, which tells lists of one length and lists without repetition apart; and the
    roots stored for two days, of one run of appends or of two, are different unless the payload hashes of the days are the same in the
    same order. -/
theorem merkleRoot_commits :
    (∀ xs ys : List (List UInt8), xs ≠ [] → ys ≠ [] → CollisionFree (treeMessages xs ++ treeMessages ys) →
      ∃ tree tree', buildMerkleTree xs = .ok tree ∧ buildMerkleTree ys = .ok tree' ∧
        (tree.root = tree'.root ↔ paddedLeaves xs = paddedLeaves ys) ∧
        (tree.root = tree'.root → xs.length = ys.length ∨ xs.Nodup ∧ ys.Nodup → xs = ys)) ∧
    ∀ events events' day day' now now' roots roots' result result' stored stored',
      PlainIds events → PlainIds events' → CollisionFree (dayMessages events day ++ dayMessages events' day') →
      computeDailyMerkleRoot (rowsAfter events) roots day now = .ok (some result,stored) →
      computeDailyMerkleRoot (rowsAfter events') roots' day' now' = .ok (some result',stored') →
      (findRoot stored (utcDayString day)).map DailyChecksumRoot.merkleRoot =
        (findRoot stored' (utcDayString day')).map DailyChecksumRoot.merkleRoot →
      (dayRows (rowsAfter events) day).map PaymentChecksum.payloadHash =
        (dayRows (rowsAfter events') day').map PaymentChecksum.payloadHash := by
  refine ⟨?_,?_⟩
  · intro xs ys someX someY free
    exact ⟨_,_,buildMerkleTree_eq someX,buildMerkleTree_eq someY,root_eq_iff free someX someY,
      eq_of_root_eq free someX someY⟩
  · intro events events' day day' now now' roots roots' result result' stored stored' plain plain' free computed computed'
      same
    obtain ⟨some_,storedIs⟩ := computeDailyMerkleRoot_some computed
    obtain ⟨some',storedIs'⟩ := computeDailyMerkleRoot_some computed'
    rw [storedIs,storedIs'] at same
    have roots : rootOf (leavesOf (dayRows (rowsAfter events) day)) = rootOf (leavesOf (dayRows (rowsAfter events') day')) :=
      Option.some.inj same
    have trees : CollisionFree (treeMessages (leavesOf (dayRows (rowsAfter events) day)) ++
        treeMessages (leavesOf (dayRows (rowsAfter events') day'))) := by
      apply collisionFree_mono _ free
      exact List.append_subset.mpr ⟨fun m listed => by simp [dayMessages,listed],fun m listed => by simp [dayMessages,listed]⟩
    have first := leaves_nodup plain (collisionFree_mono (List.subset_append_left ..) free)
    have second := leaves_nodup plain' (collisionFree_mono (List.subset_append_right ..) free)
    rw [leaves_written,leaves_written,eq_of_root_eq trees some_ some' roots (.inr ⟨first,second⟩)]

theorem computeDailyMerkleRoot_of_rows {rows : List PaymentChecksum} {day : Nat} (some_ : dayRows rows day ≠ [])
    (roots : List DailyChecksumRoot) (now : Nat) :
    ∃ result stored, computeDailyMerkleRoot rows roots day now = .ok (some result,stored) := by
  have leaves : leavesOf (dayRows rows day) ≠ [] := by simpa [leavesOf] using some_
  have length : ¬ (dayRows rows day).length = 0 := by simpa using some_
  simp [computeDailyMerkleRoot,length,buildMerkleTree_eq leaves]

/-- One payment is appended at the beginning of the first day. -/
def appendOne (id : String) : List Event :=
  [.appendPaymentChecksum 0 ⟨id,"t","w","f","1","XLM",none,none,"1970-01-01T00:00:00.000Z"⟩,
   .move 0 .findFirst,.move 0 (.create "c" 0),.move 0 (.commit none)]

theorem merkleRoot_commits_two :
    (∃ tree tree', buildMerkleTree [[1],[2]] = .ok tree ∧ buildMerkleTree [[1],[3]] = .ok tree' ∧
      tree.root ≠ tree'.root) ∧
    ∃ result result' stored stored',
      computeDailyMerkleRoot (rowsAfter (appendOne "a")) [] 0 0 = .ok (some result,stored) ∧
      computeDailyMerkleRoot (rowsAfter (appendOne "b")) [] 0 0 = .ok (some result',stored') ∧
      (findRoot stored (utcDayString 0)).map DailyChecksumRoot.merkleRoot ≠
        (findRoot stored' (utcDayString 0)).map DailyChecksumRoot.merkleRoot := by
  obtain ⟨lists,days⟩ := merkleRoot_commits
  refine ⟨?_,?_⟩
  · have free : CollisionFree (treeMessages [[1],[2]] ++ treeMessages [[1],[3]]) := by
      refine @collisionFree_of_nodup _
        [leafMessage [1],leafMessage [2],leafMessage [3],nodeMessage (sha256 (leafMessage [1])) (sha256 (leafMessage [2])),
         nodeMessage (sha256 (leafMessage [1])) (sha256 (leafMessage [3]))] ?_ ?_
      · simp [treeMessages,layersOf,layers,pairs,nextLayer,hashMerkleLeaf]
      · decide +kernel
    obtain ⟨tree,tree',built,built',_,told⟩ := lists [[1],[2]] [[1],[3]] (by simp) (by simp) free
    exact ⟨tree,tree',built,built',fun same => by simpa using told same (.inl rfl)⟩
  · obtain ⟨result,stored,computed⟩ :=
      computeDailyMerkleRoot_of_rows (show dayRows (rowsAfter (appendOne "a")) 0 ≠ [] by decide +kernel) [] 0
    obtain ⟨result',stored',computed'⟩ :=
      computeDailyMerkleRoot_of_rows (show dayRows (rowsAfter (appendOne "b")) 0 ≠ [] by decide +kernel) [] 0
    refine ⟨result,result',stored,stored',computed,computed',?_⟩
    intro same
    have free : CollisionFree (dayMessages (appendOne "a") 0 ++ dayMessages (appendOne "b") 0) :=
      collisionFree_of_nodup (List.Subset.refl _) (by decide +kernel)
    have plain : PlainIds (appendOne "a") := by unfold PlainIds; decide +kernel
    have plain' : PlainIds (appendOne "b") := by unfold PlainIds; decide +kernel
    have equal := days _ _ 0 0 0 0 [] [] result result' stored stored' plain plain' free computed computed' same
    exact absurd equal (by decide +kernel)

/-- Three leaves have the root of four, the last of which is the third again. -/
theorem root_of_three_and_four :
    CollisionFree (treeMessages [[1],[2],[3]] ++ treeMessages [[1],[2],[3],[3]]) ∧
      ∃ tree tree', buildMerkleTree [[1],[2],[3]] = .ok tree ∧ buildMerkleTree [[1],[2],[3],[3]] = .ok tree' ∧
        tree.root = tree'.root ∧ ([[1],[2],[3]] : List (List UInt8)) ≠ [[1],[2],[3],[3]] := by
  have free : CollisionFree (treeMessages [[1],[2],[3]] ++ treeMessages [[1],[2],[3],[3]]) := by
    let one := leafMessage [1]
    let two := leafMessage [2]
    let three := leafMessage [3]
    let left := nodeMessage (sha256 one) (sha256 two)
    let right := nodeMessage (sha256 three) (sha256 three)
    refine @collisionFree_of_nodup _ [one,two,three,left,right,nodeMessage (sha256 left) (sha256 right)] ?_ ?_
    · simp [treeMessages,layersOf,layers,pairs,nextLayer,hashMerkleLeaf,hashMerkleNode,one,two,three,left,right]
    · decide +kernel
  have three : height [[1],[2],[3]] = 2 := by simp [height,layersOf,layers,nextLayer,pairs]
  have four : height [[1],[2],[3],[3]] = 2 := by simp [height,layersOf,layers,nextLayer,pairs]
  have padded : paddedLeaves [[1],[2],[3]] = paddedLeaves [[1],[2],[3],[3]] := by
    simp [paddedLeaves,three,four,PairedLayers.pad,unpaired,pairs]
  have roots := root_of_padded (by simp) (by simp) padded
  exact ⟨free,_,_,buildMerkleTree_eq (by simp),buildMerkleTree_eq (by simp),roots,by simp⟩

/-! ### Payments that are checked later -/

/-- The path of a leaf leads to the root of its own tree only. -/
theorem path_accepted_iff {leaves others : List (List UInt8)} (some_ : others ≠ []) {i : Nat} (inRange : i < leaves.length) :
    verifyMerkleProof ⟨hashMerkleLeaf leaves[i],pathFrom (layersOf leaves) i⟩ (rootOf others) = true ↔
      rootOf leaves = rootOf others := by
  obtain ⟨top,rootIs,-,folded⟩ := foldPath_root inRange
  obtain ⟨message,otherIs,-⟩ := rootOf_node some_
  rw [otherIs,accepted_iff_folded (sha256_length message),folded,rootIs,Except.ok.injEq]
  exact ⟨congrArg toHex,toHex_injective⟩

/-- Against the stored root of a day a payment is verified later on, without an error, just if its
    row is among those of the day and the day's payload hashes are as they were, in order. -/
theorem verifyPaymentInDailyRoot_exact {rows rows' : List PaymentChecksum} {roots stored : List DailyChecksumRoot}
    {day now : Nat} {result : DailyMerkleRootResult}
    (computed : computeDailyMerkleRoot rows roots day now = .ok (some result,stored))
    (free : CollisionFree (treeMessages (leavesOf (dayRows rows' day)) ++ treeMessages (leavesOf (dayRows rows day))))
    (told : (leavesOf (dayRows rows' day)).length = (leavesOf (dayRows rows day)).length ∨
      (leavesOf (dayRows rows' day)).Nodup ∧ (leavesOf (dayRows rows day)).Nodup) (paymentId : String) :
    ∃ accepted, verifyPaymentInDailyRoot rows' stored paymentId day = .ok accepted ∧
      (accepted = true ↔
        (∃ target, rows'.find? (fun row => row.paymentId == paymentId) = some target ∧
          ∃ row ∈ dayRows rows' day, row.id = target.id) ∧
        leavesOf (dayRows rows' day) = leavesOf (dayRows rows day)) := by
  obtain ⟨some_,storedIs⟩ := computeDailyMerkleRoot_some computed
  cases found : rows'.find? (fun row => row.paymentId == paymentId) with
  | none => exact ⟨false,by simp [verifyPaymentInDailyRoot,found],by simp⟩
  | some target =>
    cases index : (dayRows rows' day).findIdx? (fun row => row.id == target.id) with
    | none =>
      have absent := List.findIdx?_eq_none_iff.mp index
      refine ⟨false,by simp [verifyPaymentInDailyRoot,found,storedIs,index],iff_of_false Bool.false_ne_true ?_⟩
      rintro ⟨⟨other,same,row,listed,own⟩,-⟩
      obtain rfl := Option.some.inj same
      simpa [own] using absent row listed
    | some leafIndex =>
      obtain ⟨inside,own,-⟩ := List.findIdx?_eq_some_iff_getElem.mp index
      have inRange : leafIndex < (leavesOf (dayRows rows' day)).length := by simpa [leavesOf] using inside
      have someThere : leavesOf (dayRows rows' day) ≠ [] := List.ne_nil_of_length_pos (by omega)
      have leafIs : (leavesOf (dayRows rows' day)).getD leafIndex [] = (leavesOf (dayRows rows' day))[leafIndex] := by
        simp [List.getD_eq_getElem?_getD,inRange]
      refine ⟨_,?_,path_accepted_iff some_ inRange |>.trans ?_⟩
      · simp only [verifyPaymentInDailyRoot,found,storedIs,index,buildMerkleTree_eq someThere,
          generateMerkleProof_inside inRange,leafIs]
      constructor
      · intro same
        exact ⟨⟨target,rfl,_,List.getElem_mem inside,by simpa using own⟩,eq_of_root_eq free someThere some_ same told⟩
      · rintro ⟨-,same⟩
        rw [same]

theorem verifyPaymentInDailyRoot_exact_one :
    ∃ result stored, computeDailyMerkleRoot (rowsAfter (appendOne "a")) [] 0 0 = .ok (some result,stored) ∧
      verifyPaymentInDailyRoot (rowsAfter (appendOne "a")) stored "a" 0 = .ok true := by
  obtain ⟨result,stored,computed⟩ :=
    computeDailyMerkleRoot_of_rows (show dayRows (rowsAfter (appendOne "a")) 0 ≠ [] by decide +kernel) [] 0
  have free : CollisionFree (treeMessages (leavesOf (dayRows (rowsAfter (appendOne "a")) 0)) ++
      treeMessages (leavesOf (dayRows (rowsAfter (appendOne "a")) 0))) :=
    collisionFree_of_nodup (fun m listed => by simpa using listed) (by decide +kernel)
  obtain ⟨accepted,verified,exact_⟩ := verifyPaymentInDailyRoot_exact computed free (.inl rfl) "a"
  refine ⟨result,stored,computed,?_⟩
  rw [verified,exact_.mpr ⟨⟨_,rfl,by decide +kernel⟩,rfl⟩]

end StellarAlerts.DailyRoots
