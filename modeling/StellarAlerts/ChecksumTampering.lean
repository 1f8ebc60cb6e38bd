import StellarAlerts.ChecksumChain

/-!
What `verifyChain` notices of a modification of the database.
-/
namespace StellarAlerts.ChecksumTampering
open ChecksumChain
open HexText (toHex toHex_injective toHex_length toHex_digit hexDigit)
open Histories Sha256

/-- The tables that the checksums are about. -/
structure Records where
  payment : List ChainablePayment
  paymentChecksum : List PaymentChecksum

/-- A single modification; rows are named by their place. -/
inductive Modification where
  | payloadHash (place : Nat) (value : String)
  | previousHash (place : Nat) (value : String)
  | chainHash (place : Nat) (value : String)
  | deleteRow (place : Nat)
  | payment (place : Nat) (changed : ChainablePayment)
deriving DecidableEq, Repr

def Modification.apply (r : Records) : Modification → Records
  | .payloadHash place value =>
    { r with paymentChecksum := r.paymentChecksum.modify place fun row => { row with payloadHash := value } }
  | .previousHash place value =>
    { r with paymentChecksum := r.paymentChecksum.modify place fun row => { row with previousHash := value } }
  | .chainHash place value =>
    { r with paymentChecksum := r.paymentChecksum.modify place fun row => { row with chainHash := value } }
  | .deleteRow place => { r with paymentChecksum := r.paymentChecksum.eraseIdx place }
  | .payment place changed => { r with payment := r.payment.set place changed }

/-- The modification changes what is stored: a column of some row, the rows themselves, or a payment that has its row in the chain. -/
def Modification.Changes (r : Records) : Modification → Prop
  | .payloadHash place value => ∃ row, r.paymentChecksum[place]? = some row ∧ row.payloadHash ≠ value
  | .previousHash place value => ∃ row, r.paymentChecksum[place]? = some row ∧ row.previousHash ≠ value
  | .chainHash place value => ∃ row, r.paymentChecksum[place]? = some row ∧ row.chainHash ≠ value
  | .deleteRow place => ∃ row, r.paymentChecksum[place]? = some row
  | .payment place changed =>
    ∃ stored, r.payment[place]? = some stored ∧ stored ≠ changed ∧ ∃ row ∈ r.paymentChecksum, row.paymentId = stored.id

def Modification.BreaksLink (r : Records) : Modification → Prop
  | .deleteRow place => place + 1 ≠ r.paymentChecksum.length
  | .payment _ _ => False
  | _ => True

def linkMessages (rows : List PaymentChecksum) : List (List UInt8) :=
  utf8 genesisText :: rows.map fun row => utf8 (chainText row.previousHash row.payloadHash)

theorem linkMessages_left {rows others : List PaymentChecksum} (free : CollisionFree (linkMessages (rows ++ others))) :
    CollisionFree (linkMessages rows) := by
  apply collisionFree_mono _ free
  intro message listed
  rw [linkMessages,List.mem_cons] at listed ⊢
  rw [List.map_append,List.mem_append]
  exact listed.imp_right .inl

theorem text_of_hash {messages : List (List UInt8)} (free : CollisionFree messages) {a b : String}
    (first : utf8 a ∈ messages) (second : utf8 b ∈ messages) (same : sha256Hex a = sha256Hex b) : a = b :=
  utf8_injective (free first second (toHex_injective same))

theorem chainText_inj {p q a b : String} (same : chainText p a = chainText q b)
    (width : p.toList.length = q.toList.length) : p = q ∧ a = b := by
  have lists := congrArg String.toList same
  simp only [chainText,String.toList_append,List.append_assoc] at lists
  obtain ⟨first,second⟩ := List.append_inj lists width
  exact ⟨String.toList_injective first,String.toList_injective (List.append_inj second rfl).2⟩

@[simp] theorem sha256Hex_length (text : String) : (sha256Hex text).toList.length = 64 := by
  simp [sha256Hex]

theorem genesis_ne_chainText (text payloadHash : String) : genesisText ≠ chainText (sha256Hex text) payloadHash := by
  intro same
  have lists := congrArg String.toList same
  cases digits : (sha256Hex text).toList with
  | nil => simpa [digits] using sha256Hex_length text
  | cons c rest =>
    obtain ⟨n,small,cIs⟩ := @toHex_digit (sha256 (utf8 text)) c (by rw [← sha256Hex,digits]; simp)
    have firstIs : (genesisText.toList).head? = some c := by
      rw [lists]
      simp [chainText,digits]
    have s_digit : ∀ n < 16, hexDigit n ≠ 's' := by decide
    have sIs : some 's' = some c := firstIs
    injection sIs with sIs
    exact s_digit n small (by rw [← cIs,sIs])

theorem links_differ {text : String} {rows : List PaymentChecksum} (chained : Chained (sha256Hex text) rows)
    (fresh : ∀ payloadHash, text ≠ chainText (sha256Hex text) payloadHash)
    (free : CollisionFree (utf8 text :: rows.map fun row => utf8 (chainText row.previousHash row.payloadHash))) :
    ∀ row ∈ rows, row.chainHash ≠ row.previousHash := by
  induction rows generalizing text with
  | nil => intro row member; cases member
  | cons first rest ih =>
    obtain ⟨linked,hashed,rest'⟩ := chained
    have apart : first.chainHash ≠ first.previousHash := by
      intro same
      rw [hashed,linked] at same
      have texts := text_of_hash free (a := chainText (sha256Hex text) first.payloadHash) (b := text)
        (by rw [linked.symm]; simp) (by simp) same
      exact fresh _ texts.symm
    intro row member
    rcases List.mem_cons.mp member with rfl | later
    · exact apart
    · rw [hashed] at rest'
      refine ih rest' ?_ (collisionFree_mono (by simp) free) row later
      intro payloadHash same
      have equal := (chainText_inj same (by rw [linked]; simp)).1
      rw [← computeChainHash,← hashed] at equal
      exact apart equal.symm

theorem genesis_links_differ {rows : List PaymentChecksum} (chained : Chained GENESIS_HASH rows)
    (free : CollisionFree (linkMessages rows)) : ∀ row ∈ rows, row.chainHash ≠ row.previousHash :=
  links_differ chained (genesis_ne_chainText genesisText) free

theorem chained_middle {previousHash : String} {before after : List PaymentChecksum} {row : PaymentChecksum} :
    Chained previousHash (before ++ row :: after) ↔
      Chained previousHash before ∧ row.previousHash = lastHash previousHash before ∧
        row.chainHash = computeChainHash row.previousHash row.payloadHash ∧ Chained row.chainHash after :=
  chained_append

theorem invalid_iff {rows : List PaymentChecksum} (ascending : rows.Pairwise fun a b => a.sequence < b.sequence) :
    (verifyChain rows).valid = false ↔ ¬ Chained GENESIS_HASH rows := by
  rw [verifyChain,inSequence_ascending ascending,← Bool.not_eq_true,verifyFrom_valid]

theorem split_at {α : Type} {rows : List α} {place : Nat} {row : α} (found : rows[place]? = some row) :
    ∃ before after, rows = before ++ row :: after ∧ before.length = place ∧
      (∀ f, rows.modify place f = before ++ f row :: after) ∧ rows.eraseIdx place = before ++ after := by
  obtain ⟨inside,rowIs⟩ := List.getElem?_eq_some_iff.mp found
  refine ⟨rows.take place,rows.drop (place + 1),?_,by simp; omega,?_,List.eraseIdx_eq_take_drop_succ ..⟩
  · rw [← rowIs,List.getElem_cons_drop,List.take_append_drop]
  · intro f
    rw [List.modify_eq_take_cons_drop inside,rowIs]

theorem unchained_payload {before after : List PaymentChecksum} {row : PaymentChecksum} {value : String}
    (chained : Chained GENESIS_HASH (before ++ row :: after)) (changes : row.payloadHash ≠ value)
    (free : CollisionFree (linkMessages
      ((before ++ row :: after) ++ (before ++ { row with payloadHash := value } :: after)))) :
    ¬ Chained GENESIS_HASH (before ++ { row with payloadHash := value } :: after) := by
  intro changed
  obtain ⟨_,_,hashed,_⟩ := chained_middle.mp chained
  obtain ⟨_,_,hashed',_⟩ := chained_middle.mp changed
  have texts := text_of_hash free (a := chainText row.previousHash row.payloadHash)
    (b := chainText row.previousHash value) (by simp [linkMessages]) (by simp [linkMessages]) (hashed.symm.trans hashed')
  exact changes (chainText_inj texts rfl).2

theorem unchained_previous {before after : List PaymentChecksum} {row : PaymentChecksum} {value : String}
    (chained : Chained GENESIS_HASH (before ++ row :: after)) (changes : row.previousHash ≠ value) :
    ¬ Chained GENESIS_HASH (before ++ { row with previousHash := value } :: after) := by
  intro changed
  obtain ⟨_,linked,_⟩ := chained_middle.mp chained
  obtain ⟨_,linked',_⟩ := chained_middle.mp changed
  exact changes (linked.trans linked'.symm)

theorem unchained_hash {before after : List PaymentChecksum} {row : PaymentChecksum} {value : String}
    (chained : Chained GENESIS_HASH (before ++ row :: after)) (changes : row.chainHash ≠ value) :
    ¬ Chained GENESIS_HASH (before ++ { row with chainHash := value } :: after) := by
  intro changed
  obtain ⟨_,_,hashed,_⟩ := chained_middle.mp chained
  obtain ⟨_,_,hashed',_⟩ := chained_middle.mp changed
  exact changes (hashed.trans hashed'.symm)

theorem chained_without {before after : List PaymentChecksum} {row : PaymentChecksum}
    (chained : Chained GENESIS_HASH (before ++ row :: after))
    (free : CollisionFree (linkMessages (before ++ row :: after))) :
    Chained GENESIS_HASH (before ++ after) ↔ after = [] := by
  obtain ⟨earlier,linked,hashed,later⟩ := chained_middle.mp chained
  cases after with
  | nil => simpa using earlier
  | cons next after =>
    simp only [reduceCtorEq,iff_false]
    intro without
    have nextLinked := (chained_middle.mp without).2.1
    have apart := genesis_links_differ chained free row (by simp)
    exact apart (by rw [linked,← nextLinked,later.1])

theorem modified_invalid {rows : List PaymentChecksum} (ascending : rows.Pairwise fun a b => a.sequence < b.sequence)
    {place : Nat} {row : PaymentChecksum} (found : rows[place]? = some row) {f : PaymentChecksum → PaymentChecksum}
    (kept : (f row).sequence = row.sequence)
    (broken : ∀ before after, rows = before ++ row :: after → rows.modify place f = before ++ f row :: after →
      ¬ Chained GENESIS_HASH (before ++ f row :: after)) : (verifyChain (rows.modify place f)).valid = false := by
  obtain ⟨before,after,rowsAre,_,modified,_⟩ := split_at found
  have ascending' : (rows.modify place f).Pairwise fun a b => a.sequence < b.sequence := by
    rw [modified]
    rw [rowsAre] at ascending
    simpa [List.pairwise_append,List.pairwise_cons,kept] using ascending
  rw [invalid_iff ascending',modified]
  exact broken before after rowsAre (modified f)

theorem deleted_invalid_iff {rows : List PaymentChecksum} (chained : Chained GENESIS_HASH rows)
    (ascending : rows.Pairwise fun a b => a.sequence < b.sequence) (free : CollisionFree (linkMessages rows))
    {place : Nat} {row : PaymentChecksum} (found : rows[place]? = some row) :
    (verifyChain (rows.eraseIdx place)).valid = false ↔ place + 1 ≠ rows.length := by
  rw [invalid_iff (ascending.sublist (List.eraseIdx_sublist ..))]
  obtain ⟨before,after,rfl,length,_,erased⟩ := split_at found
  rw [erased,chained_without chained free,← List.length_eq_zero_iff]
  simp only [List.length_append,List.length_cons]
  omega

/-- After any appends and one modification, `verifyChain` reports the chain invalid exactly if the modification breaks a link. -/
theorem tampering_found_iff (events : List Event) (payment : List ChainablePayment) (m : Modification)
    (changes : m.Changes ⟨payment,(run step System.start events).db.paymentChecksum.rows⟩)
    (free : CollisionFree (linkMessages ((run step System.start events).db.paymentChecksum.rows ++
      (m.apply ⟨payment,(run step System.start events).db.paymentChecksum.rows⟩).paymentChecksum))) :
    (verifyChain (m.apply ⟨payment,(run step System.start events).db.paymentChecksum.rows⟩).paymentChecksum).valid =
        false ↔ m.BreaksLink ⟨payment,(run step System.start events).db.paymentChecksum.rows⟩ := by
  obtain ⟨linear,_⟩ := sound_run events
  have chained := linear.chained
  have ascending := linear.ascending
  generalize (run step System.start events).db.paymentChecksum.rows = rows at *
  cases m with
  | payloadHash place value =>
    obtain ⟨row,found,differs⟩ := changes
    refine iff_of_true (modified_invalid ascending found rfl ?_) trivial
    intro before after rowsAre modified
    simp only [Modification.apply,modified] at free
    subst rowsAre
    exact unchained_payload chained differs free
  | previousHash place value =>
    obtain ⟨row,found,differs⟩ := changes
    refine iff_of_true (modified_invalid ascending found rfl ?_) trivial
    intro before after rowsAre _
    exact unchained_previous (rowsAre ▸ chained) differs
  | chainHash place value =>
    obtain ⟨row,found,differs⟩ := changes
    refine iff_of_true (modified_invalid ascending found rfl ?_) trivial
    intro before after rowsAre _
    exact unchained_hash (rowsAre ▸ chained) differs
  | deleteRow place =>
    obtain ⟨row,found⟩ := changes
    exact deleted_invalid_iff chained ascending (linkMessages_left free) found
  | payment place changed =>
    simp only [Modification.apply,Modification.BreaksLink,iff_false]
    rw [invalid_iff ascending]
    exact not_not_intro chained

def samplePayment : ChainablePayment :=
  ⟨"p1","tx1","w1","GA","10","XLM",none,none,"2026-01-01T00:00:00.000Z"⟩

/-- One append that meets no other. -/
def sampleAppend : List Event :=
  [.appendPaymentChecksum 0 samplePayment,.move 0 .findFirst,.move 0 (.create "r1" 0),.move 0 (.commit none)]

def sampleRow : PaymentChecksum := newRow samplePayment [] 1 "r1" 0
theorem sample_rows : (run step System.start sampleAppend).db.paymentChecksum.rows = [sampleRow] := by
  simp [sampleAppend,run,step,System.start,System.put,advance,UniqueTables.Table.holds,UniqueTables.Table.insert,sampleRow]

theorem sample_digests :
    ([utf8 genesisText,utf8 (chainText sampleRow.previousHash sampleRow.payloadHash)].map sha256).Nodup := by
  have genesis : utf8 genesisText = _ := utf8_ofList _
  have previous : utf8 sampleRow.previousHash = _ := utf8_ofList _
  have payload : utf8 sampleRow.payloadHash = _ := utf8_ofList _
  rw [chainText,utf8_append,utf8_append,previous,payload,genesis]
  exact nodup_of_heads [222,225] (.cons (by decide +kernel) (.cons (by decide +kernel) .nil)) (by decide)

theorem forged_hash_found :
    (verifyChain (Modification.apply ⟨[samplePayment],(run step System.start sampleAppend).db.paymentChecksum.rows⟩
      (.chainHash 0 "forged")).paymentChecksum).valid = false := by
  refine (tampering_found_iff sampleAppend [samplePayment] (.chainHash 0 "forged") ?_ ?_).mpr trivial
  · rw [sample_rows]
    refine ⟨sampleRow,rfl,?_⟩
    intro same
    have length := sha256Hex_length (chainText sampleRow.previousHash sampleRow.payloadHash)
    rw [← computeChainHash,show computeChainHash sampleRow.previousHash sampleRow.payloadHash = "forged" from same] at length
    cases length
  · rw [sample_rows]
    refine collisionFree_of_nodup ?_ sample_digests
    simp [linkMessages,Modification.apply]

/-- Every single modification of a chain is reported. -/
def TamperEvident : Prop :=
  ∀ (events : List Event) (payment : List ChainablePayment) (m : Modification),
    let r : Records := ⟨payment,(run step System.start events).db.paymentChecksum.rows⟩
    m.Changes r → CollisionFree (linkMessages (r.paymentChecksum ++ (m.apply r).paymentChecksum)) →
      (verifyChain (m.apply r).paymentChecksum).valid = false

/-- The last row of a chain can be deleted unnoticed. -/
theorem deleted_tail_unnoticed : ¬ TamperEvident := by
  intro evident
  have reported := evident sampleAppend [samplePayment] (.deleteRow 0)
  simp only [sample_rows] at reported
  have invalid := reported ⟨sampleRow,rfl⟩ (collisionFree_of_nodup (by simp [linkMessages,Modification.apply]) sample_digests)
  cases invalid

end StellarAlerts.ChecksumTampering
