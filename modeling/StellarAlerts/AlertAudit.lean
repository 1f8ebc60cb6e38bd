import Mathlib.Data.List.Sort
import StellarAlerts.DateTexts
import StellarAlerts.JsonTexts
import StellarAlerts.MerkleProofs
import StellarAlerts.UniqueTables

/-!
The audit of delivered alerts. The batch ends with the first millisecond of the last
second of its day, so later alerts are in no root; and the verifier takes the identifier
of an alert without looking at it, so it accepts what is proven of any node
(`alert_inclusion`).
-/
namespace StellarAlerts.AlertAudit
open DateTexts
open HexText (isHex fromHex toHex toHex_injective fromHex_toHex)
open JsonTexts (quote)
open Merkle
open PairedLayers (layers)
open Sha256 UniqueTables

/-- What the audit reads of a row. -/
structure Alert where
  id : String
  status : String
  recipientAddress : String
  amount : String
  assetCode : String
  assetIssuer : Option String
  txHash : String
  createdAt : Date
  deliveredAt : Option Date
deriving DecidableEq

def Alert.clash (a b : Alert) : Bool := a.id == b.id
abbrev Alerts := Table Alert Alert.clash

structure Platform where
  /-- `new Date` of texts whose form the language leaves to the engine -/
  furtherDates : String → Option Date
  /-- the collation of the database, for `orderBy: { id: 'asc' }` -/
  inOrder : String → String → Bool
  /-- what the client throws for an invalid date in a query -/
  invalidDate : String

def member (name : String) (value : Option String) : List Char :=
  quote name ++ ':' :: value.elim "null".toList quote

/-- `JSON.stringify(alert)` of the selected columns. -/
def jsonText (alert : Alert) : String :=
  String.ofList ('{' :: [','].intercalate
    [member "id" alert.id,member "recipientAddress" alert.recipientAddress,member "amount" alert.amount,
      member "assetCode" alert.assetCode,member "assetIssuer" alert.assetIssuer,member "txHash" alert.txHash,
      member "createdAt" (toISOString alert.createdAt),member "deliveredAt" (alert.deliveredAt.map toISOString)] ++ ['}'])

def leafOf (alert : Alert) : List UInt8 := utf8 (jsonText alert)

/-- Both functions ask for the alerts of the date in this way. -/
def deliveredAlerts (p : Platform) (alerts : Alerts) (date : String) : Except String (List Alert) :=
  match readSeconds p.furtherDates (date ++ "T00:00:00"), readSeconds p.furtherDates (date ++ "T23:59:59") with
  | some startOfDay, some endOfDay =>
    .ok ((alerts.rows.filter fun alert => alert.status == "DELIVERED" &&
      alert.deliveredAt.any fun deliveredAt => startOfDay.ms ≤ deliveredAt.ms && deliveredAt.ms ≤ endOfDay.ms).insertionSort
        fun a b => p.inOrder a.id b.id = true)
  | _, _ => .error p.invalidDate

structure DailyRoot where
  root : String
  treeSize : Nat
deriving DecidableEq, Repr

def generateDailyMerkleRoot (p : Platform) (alerts : Alerts) (date : String) : Except String DailyRoot := do
  let batch ← deliveredAlerts p alerts date
  if batch.length = 0 then throw s!"No delivered alerts found for date {date}"
  else
    let tree ← buildMerkleTree (batch.map leafOf)
    return ⟨tree.root,batch.length⟩

def generateAlertInclusionProof (p : Platform) (alerts : Alerts) (alertId date : String) : Except String MerkleProof := do
  let batch ← deliveredAlerts p alerts date
  match batch.findIdx? fun alert => alert.id == alertId with
  | none => throw s!"Alert {alertId} not found in delivered alerts for date {date}"
  | some alertIndex =>
    let leaves := batch.map leafOf
    let tree ← buildMerkleTree leaves
    let path ← generateMerkleProof tree alertIndex
    return ⟨hashMerkleLeaf (leaves.getD alertIndex []),path⟩

def verifyAlertInclusion (_alertId : String) (proof : MerkleProof) (expectedRoot : String) : Bool :=
  verifyMerkleProof proof expectedRoot

section Batches
variable {p : Platform} {alerts : Alerts} {date : String}

def Delivered (alert : Alert) (deliveredAt : Date) : Prop := alert.status = "DELIVERED" ∧ alert.deliveredAt = some deliveredAt

/-- Up to the first millisecond of the last second of its day, which `Date` can hold. -/
def InTime (deliveredAt : Date) : Prop := deliveredAt.ms % 86400000 ≤ 86399000 ∧ deliveredAt.ms < 8640000000000000

/-- The text is that of a day that `Date` can hold. -/
def IsDay (date : String) : Prop := ∃ t : Date, date = dayText t

theorem mem_deliveredAlerts {batch : List Alert} (asked : deliveredAlerts p alerts date = .ok batch) :
    ∃ startOfDay endOfDay, readSeconds p.furtherDates (date ++ "T00:00:00") = some startOfDay ∧
      readSeconds p.furtherDates (date ++ "T23:59:59") = some endOfDay ∧
      ∀ alert, alert ∈ batch ↔ alert ∈ alerts.rows ∧ ∃ deliveredAt, Delivered alert deliveredAt ∧
        startOfDay.ms ≤ deliveredAt.ms ∧ deliveredAt.ms ≤ endOfDay.ms := by
  unfold deliveredAlerts at asked
  split at asked
  · rename_i startOfDay endOfDay begins ends
    obtain rfl := Except.ok.inj asked
    refine ⟨startOfDay,endOfDay,begins,ends,fun alert => ?_⟩
    rw [List.mem_insertionSort,List.mem_filter]
    refine and_congr_right fun _ => ?_
    simp only [Bool.and_eq_true,beq_iff_eq,Option.any_eq_true,decide_eq_true_eq,Delivered]
    constructor
    · rintro ⟨status,deliveredAt,isAt,after,before⟩
      exact ⟨deliveredAt,⟨status,isAt⟩,after,before⟩
    · rintro ⟨deliveredAt,⟨status,isAt⟩,after,before⟩
      exact ⟨status,deliveredAt,isAt,after,before⟩
  · cases asked

theorem deliveredAlerts_dayText (p : Platform) (alerts : Alerts) (t : Date) :
    (∃ batch, deliveredAlerts p alerts (dayText t) = .ok batch) ↔ t.day * 86400000 + 86399000 ≤ 8640000000000000 := by
  unfold deliveredAlerts
  rw [readSeconds_dayStart]
  constructor
  · rintro ⟨batch,asked⟩
    split at asked
    · rename_i stop _ ends
      have stopIs := (readSeconds_dayEnd p.furtherDates t stop).mp ends
      have inRange := stop.inRange
      omega
    · cases asked
  · intro fits
    have inRange : -8640000000000000 ≤ t.day * 86400000 + 86399000 ∧ t.day * 86400000 + 86399000 ≤ 8640000000000000 := by
      have starts := t.dayStart.inRange
      simp only [Date.dayStart] at starts
      omega
    have ends := (readSeconds_dayEnd p.furtherDates t ⟨_,inRange⟩).mpr rfl
    rw [ends]
    exact ⟨_,rfl⟩

theorem mem_batch_iff {t : Date} {batch : List Alert} (asked : deliveredAlerts p alerts (dayText t) = .ok batch) {alert : Alert}
    (listed : alert ∈ alerts.rows) {deliveredAt : Date} (delivered : Delivered alert deliveredAt) :
    alert ∈ batch ↔ deliveredAt.day = t.day ∧ deliveredAt.ms % 86400000 ≤ 86399000 := by
  obtain ⟨startOfDay,endOfDay,begins,ends,members⟩ := mem_deliveredAlerts asked
  rw [readSeconds_dayStart] at begins
  obtain rfl := Option.some.inj begins
  have stop := (readSeconds_dayEnd p.furtherDates t endOfDay).mp ends
  rw [members]
  have dayIs : deliveredAt.day = deliveredAt.ms / 86400000 := rfl
  constructor
  · rintro ⟨_,at_,⟨_,isAt⟩,after,before⟩
    obtain rfl : deliveredAt = at_ := Option.some.inj (delivered.2.symm.trans isAt)
    simp only [Date.dayStart] at after
    omega
  · rintro ⟨sameDay,early⟩
    refine ⟨listed,deliveredAt,delivered,?_,?_⟩
    · simp only [Date.dayStart]
      omega
    · omega

theorem eq_of_id {a b : Alert} (inA : a ∈ alerts.rows) (inB : b ∈ alerts.rows) (same : a.id = b.id) : a = b := by
  refine eq_of_clash alerts (fun a b => ?_) inA inB (by simp [Alert.clash,same])
  rw [Alert.clash,Alert.clash,BEq.comm]

end Batches

section Roots
variable {p : Platform} {alerts : Alerts} {date : String} {batch : List Alert}

theorem generateDailyMerkleRoot_eq (asked : deliveredAlerts p alerts date = .ok batch) (some_ : batch ≠ []) :
    generateDailyMerkleRoot p alerts date = .ok ⟨rootOf (batch.map leafOf),batch.length⟩ := by
  have length : ¬ batch.length = 0 := by simpa using some_
  have leaves : batch.map leafOf ≠ [] := by simpa using some_
  unfold generateDailyMerkleRoot
  rw [asked]
  show (if batch.length = 0 then _ else buildMerkleTree (batch.map leafOf) >>= fun tree => _) = _
  rw [if_neg length,buildMerkleTree_eq leaves]
  rfl

theorem generateDailyMerkleRoot_ok {result : DailyRoot} (generated : generateDailyMerkleRoot p alerts date = .ok result) :
    ∃ batch, deliveredAlerts p alerts date = .ok batch ∧ batch ≠ [] ∧ result = ⟨rootOf (batch.map leafOf),batch.length⟩ := by
  cases asked : deliveredAlerts p alerts date with
  | error e =>
    rw [generateDailyMerkleRoot,asked] at generated
    cases generated
  | ok batch =>
    by_cases empty : batch = []
    · subst empty
      rw [generateDailyMerkleRoot,asked] at generated
      cases generated
    · rw [generateDailyMerkleRoot_eq asked empty] at generated
      exact ⟨batch,rfl,empty,(Except.ok.inj generated).symm⟩

variable {alert : Alert}

theorem generateAlertInclusionProof_mem (asked : deliveredAlerts p alerts date = .ok batch) (listed : alert ∈ batch) :
    ∃ proof, generateAlertInclusionProof p alerts alert.id date = .ok proof ∧
      verifyMerkleProof proof (rootOf (batch.map leafOf)) = true := by
  cases found : batch.findIdx? fun other => other.id == alert.id with
  | none =>
    have differ := List.findIdx?_eq_none_iff.mp found alert listed
    simp at differ
  | some index =>
    have inside : index < batch.length := (List.findIdx?_eq_some_iff_getElem.mp found).1
    have inRange : index < (batch.map leafOf).length := by simpa using inside
    have leaves : batch.map leafOf ≠ [] := List.ne_nil_of_length_pos (by omega)
    have leafIs : (batch.map leafOf).getD index [] = (batch.map leafOf)[index] := by
      simp [List.getD_eq_getElem?_getD,inside]
    refine ⟨⟨hashMerkleLeaf (batch.map leafOf)[index],pathFrom (layersOf (batch.map leafOf)) index⟩,?_,path_accepted inRange⟩
    unfold generateAlertInclusionProof
    rw [asked]
    show (match batch.findIdx? fun other => other.id == alert.id with
      | none => _
      | some _ => _) = _
    rw [found]
    simp only [buildMerkleTree_eq leaves,leafIs]
    show (generateMerkleProof ⟨rootOf (batch.map leafOf),layersOf (batch.map leafOf)⟩ (index : Int) >>= fun path => _) = _
    rw [generateMerkleProof_inside inRange]
    rfl

theorem generateAlertInclusionProof_of_ok (listed : alert ∈ alerts.rows) {proof : MerkleProof}
    (generated : generateAlertInclusionProof p alerts alert.id date = .ok proof) :
    ∃ batch, deliveredAlerts p alerts date = .ok batch ∧ alert ∈ batch := by
  cases asked : deliveredAlerts p alerts date with
  | error e =>
    rw [generateAlertInclusionProof,asked] at generated
    cases generated
  | ok batch =>
    refine ⟨batch,rfl,?_⟩
    cases found : batch.findIdx? fun other => other.id == alert.id with
    | none =>
      have fails : generateAlertInclusionProof p alerts alert.id date =
          .error s!"Alert {alert.id} not found in delivered alerts for date {date}" := by
        unfold generateAlertInclusionProof
        rw [asked]
        show (match batch.findIdx? fun other => other.id == alert.id with
          | none => _
          | some _ => _) = _
        rw [found]
        rfl
      rw [fails] at generated
      cases generated
    | some index =>
      obtain ⟨inside,same,_⟩ := List.findIdx?_eq_some_iff_getElem.mp found
      have inBatch : batch[index] ∈ batch := List.getElem_mem inside
      obtain ⟨_,_,_,_,members⟩ := mem_deliveredAlerts asked
      have isAlert : batch[index] = alert := eq_of_id ((members _).mp inBatch).1 listed (beq_iff_eq.mp same)
      exact isAlert ▸ inBatch

def IsLeaf (p : Platform) (alerts : Alerts) (date : String) (alert : Alert) : Prop :=
  ∃ batch, deliveredAlerts p alerts date = .ok batch ∧ alert ∈ batch ∧
    generateDailyMerkleRoot p alerts date = .ok ⟨rootOf (batch.map leafOf),batch.length⟩

def LeafOfId (alerts : Alerts) (alertId : String) (hash : List UInt8) : Prop :=
  ∃ alert ∈ alerts.rows, alert.id = alertId ∧ hash = sha256 (leafMessage (leafOf alert))

theorem isLeaf_iff {t : Date} (listed : alert ∈ alerts.rows) {deliveredAt : Date} (delivered : Delivered alert deliveredAt) :
    IsLeaf p alerts (dayText t) alert ↔ deliveredAt.day = t.day ∧ InTime deliveredAt := by
  have dayIs : deliveredAt.day = deliveredAt.ms / 86400000 := rfl
  constructor
  · rintro ⟨batch,asked,inBatch,_⟩
    obtain ⟨sameDay,early⟩ := (mem_batch_iff asked listed delivered).mp inBatch
    have fits := (deliveredAlerts_dayText p alerts t).mp ⟨batch,asked⟩
    exact ⟨sameDay,early,by omega⟩
  · rintro ⟨sameDay,early,before⟩
    obtain ⟨batch,asked⟩ := (deliveredAlerts_dayText p alerts t).mpr (by omega)
    have inBatch := (mem_batch_iff asked listed delivered).mpr ⟨sameDay,early⟩
    exact ⟨batch,asked,inBatch,generateDailyMerkleRoot_eq asked (List.ne_nil_of_mem inBatch)⟩

end Roots

/-- An alert is a leaf of exactly one daily root, and has a proof that verifies against it, if and only if it was delivered
    before the last second of its day had run for a millisecond. What is verified of a hash against a daily root is about
    the alert whose identifier is given if and only if the hash is its leaf or no node of the day's tree. -/
theorem alert_inclusion (p : Platform) (alerts : Alerts) :
    (∀ alert ∈ alerts.rows, ∀ deliveredAt, Delivered alert deliveredAt →
      ((∃! date, IsDay date ∧ IsLeaf p alerts date alert) ↔ InTime deliveredAt) ∧
      ((∃ proof result, generateAlertInclusionProof p alerts alert.id (dayText deliveredAt) = .ok proof ∧
        generateDailyMerkleRoot p alerts (dayText deliveredAt) = .ok result ∧
        verifyAlertInclusion alert.id proof result.root = true) ↔ InTime deliveredAt)) ∧
    ∀ date batch result alertId leafHash, deliveredAlerts p alerts date = .ok batch →
      generateDailyMerkleRoot p alerts date = .ok result → CollisionFree (treeMessages (batch.map leafOf)) →
      ((∀ path, CollisionFree (treeMessages (batch.map leafOf) ++ pathMessages (fromHex leafHash) path) →
        verifyAlertInclusion alertId ⟨leafHash,path⟩ result.root = true → LeafOfId alerts alertId (fromHex leafHash)) ↔
        (isHex64 leafHash = true ∧ IsNode (batch.map leafOf) (fromHex leafHash) → LeafOfId alerts alertId (fromHex leafHash))) := by
  refine ⟨?_,?_⟩
  · intro alert listed deliveredAt delivered
    have here : IsLeaf p alerts (dayText deliveredAt) alert ↔ InTime deliveredAt := by
      rw [isLeaf_iff listed delivered]
      exact and_iff_right rfl
    refine ⟨⟨?_,?_⟩,⟨?_,?_⟩⟩
    · rintro ⟨_,⟨⟨t,rfl⟩,isLeaf⟩,_⟩
      exact ((isLeaf_iff listed delivered).mp isLeaf).2
    · intro inTime
      refine ⟨dayText deliveredAt,⟨⟨deliveredAt,rfl⟩,here.mpr inTime⟩,?_⟩
      rintro _ ⟨⟨t,rfl⟩,isLeaf⟩
      exact dayText_eq_iff.mpr ((isLeaf_iff listed delivered).mp isLeaf).1.symm
    · rintro ⟨proof,result,generated,_,_⟩
      obtain ⟨batch,asked,inBatch⟩ := generateAlertInclusionProof_of_ok listed generated
      exact here.mp ⟨batch,asked,inBatch,generateDailyMerkleRoot_eq asked (List.ne_nil_of_mem inBatch)⟩
    · intro inTime
      obtain ⟨batch,asked,inBatch,root⟩ := here.mpr inTime
      obtain ⟨proof,generated,accepted⟩ := generateAlertInclusionProof_mem asked inBatch
      exact ⟨proof,_,generated,root,accepted⟩
  · intro date batch result alertId leafHash asked generated free
    obtain ⟨other,askedToo,some_,rfl⟩ := generateDailyMerkleRoot_ok generated
    obtain rfl : batch = other := Except.ok.inj (asked.symm.trans askedToo)
    have leaves : batch.map leafOf ≠ [] := by simpa using some_
    rw [← accepted_node_iff leaves free]
    constructor
    · rintro always ⟨path,freeThere,accepted⟩
      exact always path freeThere accepted
    · intro ofNode path freeThere accepted
      exact ofNode ⟨path,freeThere,accepted⟩

def byteOrder : Platform := ⟨fun _ => none,fun a b => a ≤ b,"Provided Date object is invalid"⟩

/-- Delivered on 2026-08-30 at noon. -/
def paid : Alert :=
  ⟨"a","DELIVERED","GUSER","100.00","USDC",none,"tx",⟨1788091199000,by decide⟩,some ⟨1788091200000,by decide⟩⟩

/-- Delivered half a second before the next day. -/
def late : Alert := { paid with id := "b", deliveredAt := some ⟨1788134399500,by decide⟩ }

def twoAlerts : Alerts := ⟨[late,paid],by decide⟩
theorem asked_two : deliveredAlerts byteOrder twoAlerts "2026-08-30" = .ok [paid] := by decide +kernel

theorem alert_inclusion_two :
    (∃! date, IsDay date ∧ IsLeaf byteOrder twoAlerts date paid) ∧
    (∃ proof result, generateAlertInclusionProof byteOrder twoAlerts "a" (dayText ⟨1788091200000,by decide⟩) = .ok proof ∧
      generateDailyMerkleRoot byteOrder twoAlerts (dayText ⟨1788091200000,by decide⟩) = .ok result ∧
      verifyAlertInclusion "a" proof result.root = true) ∧
    ∀ path, CollisionFree (treeMessages [leafOf paid] ++ pathMessages (fromHex (hashMerkleLeaf (leafOf paid))) path) →
      verifyAlertInclusion "a" ⟨hashMerkleLeaf (leafOf paid),path⟩ (rootOf [leafOf paid]) = true →
      LeafOfId twoAlerts "a" (fromHex (hashMerkleLeaf (leafOf paid))) := by
  obtain ⟨covered,identified⟩ := alert_inclusion byteOrder twoAlerts
  obtain ⟨leaf,proof⟩ := covered paid (by simp [twoAlerts]) ⟨1788091200000,by decide⟩ ⟨rfl,rfl⟩
  have inTime : InTime ⟨1788091200000,by decide⟩ := by
    unfold InTime
    decide
  have free : CollisionFree (treeMessages [leafOf paid]) := by
    have one : treeMessages [leafOf paid] = [leafMessage (leafOf paid)] := by simp [treeMessages,layersOf,layers]
    rw [one]
    exact collisionFree_of_nodup (List.Subset.refl _) (List.nodup_singleton _)
  have own : LeafOfId twoAlerts "a" (fromHex (hashMerkleLeaf (leafOf paid))) :=
    ⟨paid,by simp [twoAlerts],rfl,by rw [hashMerkleLeaf,fromHex_toHex]⟩
  exact ⟨leaf.mpr inTime,proof.mpr inTime,(identified "2026-08-30" [paid] _ "a" (hashMerkleLeaf (leafOf paid)) asked_two
    (generateDailyMerkleRoot_eq asked_two (by simp)) free).mpr fun _ => own⟩

/-- The late alert is in no daily root, and the proof of the other one verifies for an identifier that no alert has. -/
theorem alert_inclusion_late :
    (¬ ∀ (p : Platform) (alerts : Alerts), ∀ alert ∈ alerts.rows, ∀ deliveredAt, Delivered alert deliveredAt →
      ∃! date, IsDay date ∧ IsLeaf p alerts date alert) ∧
    ¬ ∀ (p : Platform) (alerts : Alerts) (alertId other date : String) (proof : MerkleProof) (result : DailyRoot),
      generateAlertInclusionProof p alerts alertId date = .ok proof → generateDailyMerkleRoot p alerts date = .ok result →
      verifyAlertInclusion other proof result.root = true → LeafOfId alerts other (fromHex proof.leafHash) := by
  constructor
  · intro always
    have listed : late ∈ twoAlerts.rows := by simp [twoAlerts]
    obtain ⟨_,⟨⟨t,rfl⟩,isLeaf⟩,_⟩ := always byteOrder twoAlerts late listed ⟨1788134399500,by decide⟩ ⟨rfl,rfl⟩
    have early := ((isLeaf_iff listed ⟨rfl,rfl⟩).mp isLeaf).2.1
    exact absurd early (by decide)
  · intro always
    obtain ⟨proof,generated,accepted⟩ := generateAlertInclusionProof_mem asked_two (List.mem_singleton_self paid)
    obtain ⟨alert,listed,isId,_⟩ := always byteOrder twoAlerts "a" "c" "2026-08-30" proof _ generated
      (generateDailyMerkleRoot_eq asked_two (by simp)) accepted
    rcases List.mem_cons.mp listed with rfl | last
    · exact absurd isId (by decide)
    · rw [List.mem_singleton.mp last] at isId
      exact absurd isId (by decide)

end StellarAlerts.AlertAudit
