import StellarAlerts.MultisigWatcher

/-!
The multisig watcher call by call: who has signed what is counted (`count_signed`), what a call
makes of the row of a transaction (`exec_row`), and where a pass stands with it: before its
end it has read whom was told before, and told some signers more (`program_follows`).
-/
namespace StellarAlerts.WatcherPlaces
open GreedyMatching
open Interleaving hiding step
open MultisigCounting MultisigWatcher StellarEnvelopes

section Counting
variable {sdk : Sdk} {txHash : List UInt8} {signers : List MultisigSigner}

theorem matchSigner_ok {decoratedSig : DecoratedSignature} {signedBy : List String} {found : Option String}
    (matched : matchSigner sdk txHash decoratedSig signedBy signers = .ok found) :
    found = taker (sdk.signs txHash) (keys signers) signedBy decoratedSig := by
  induction signers with
  | nil =>
    cases matched
    rfl
  | cons signer rest ih =>
    rw [keys,List.map_cons,taker,List.find?_cons,← keys,← taker]
    by_cases counted : signer.key ∈ signedBy
    · rw [matchSigner,if_pos counted] at matched
      simp [counted,ih matched]
    · rw [matchSigner,if_neg counted] at matched
      cases keyed : sdk.fromPublicKey signer.key with
      | none =>
        have unsigned : sdk.signs txHash signer.key decoratedSig = false := by rw [Sdk.signs,keyed]
        simp only [keyed] at matched
        simp [unsigned,ih matched]
      | some keypair =>
        simp only [keyed] at matched
        by_cases hint : signatureHint keypair = decoratedSig.hint
        · rw [if_neg (not_not.mpr hint)] at matched
          cases answer : sdk.verify keypair txHash decoratedSig.signature with
          | error message =>
            rw [answer] at matched
            cases matched
          | ok verified =>
            have signs : sdk.signs txHash signer.key decoratedSig = verified := by
              simp [Sdk.signs,keyed,hint,Sdk.verifies,answer]
            rw [answer] at matched
            cases verified with
            | true =>
              cases matched
              simp [counted,signs]
            | false => simp [signs,ih matched]
        · have unsigned : sdk.signs txHash signer.key decoratedSig = false := by simp [Sdk.signs,keyed,hint]
          rw [if_pos hint] at matched
          simp [unsigned,ih matched]

theorem countSignatures_ok {signatures : List DecoratedSignature} {counted : SignatureCount}
    (counts : countSignatures sdk txHash signers signatures = .ok counted) :
    counted = countOf (matching (sdk.signs txHash) (keys signers) signatures) := by
  induction signatures using List.reverseRecOn generalizing counted with
  | nil =>
    cases counts
    rfl
  | append_singleton signatures last ih =>
    rw [countSignatures,List.foldlM_append,← countSignatures] at counts
    cases before : countSignatures sdk txHash signers signatures with
    | error message =>
      rw [before] at counts
      cases counts
    | ok earlier =>
      rw [before] at counts
      simp only [List.foldlM_cons,List.foldlM_nil,bind,Except.bind,pure,Except.pure,countSignature] at counts
      rw [matching_concat,Matching.give]
      obtain rfl := ih before
      cases matched : matchSigner sdk txHash last (countOf (matching (sdk.signs txHash) (keys signers) signatures)).signedBy signers with
      | error message =>
        rw [matched] at counts
        cases counts
      | ok found =>
        have isTaker := matchSigner_ok matched
        rw [matched] at counts
        cases found with
        | none =>
          cases counts
          rw [countOf] at isTaker
          rw [← isTaker]
          rfl
        | some key =>
          cases counts
          rw [countOf] at isTaker
          rw [← isTaker]
          rfl

end Counting

section Envelopes
variable (sdk : Sdk) (networkPassphrase : String) (treasury : Treasury)

/-- The envelope carries a signature of the signer. -/
def signed (envelopeXdr key : String) : Bool :=
  match sdk.fromXDR envelopeXdr networkPassphrase with
  | .ok parsed =>
    let tx := parsed.innerTransaction
    key ∈ keys treasury.signers && tx.signatures.any (sdk.signs (sdk.hash networkPassphrase tx.body) key)
  | .error _ => false

/-- Every signature verifies under the key of one signer at most. -/
def OneSigner : Prop :=
  ∀ envelopeXdr parsed, sdk.fromXDR envelopeXdr networkPassphrase = .ok parsed →
    sdk.OneSigner (sdk.hash networkPassphrase parsed.innerTransaction.body) (keys treasury.signers) parsed.innerTransaction.signatures

def requiredThreshold : Nat := treasury.thresholds.required treasury.thresholdLevel

/-- The weight of the signers that have signed. -/
def weightWhere (has : String → Bool) : Nat := weightOf (treasury.signers.filter fun s => has s.key)

variable {sdk networkPassphrase treasury} {envelopeXdr : String} {progress : MultisigSignatureProgress}

theorem count_signed (one : OneSigner sdk networkPassphrase treasury)
    (counts : count sdk networkPassphrase treasury envelopeXdr = .ok progress) :
    (∀ key, key ∈ progress.signedBy ↔ signed sdk networkPassphrase treasury envelopeXdr key = true) ∧
      progress.collectedWeight = weightWhere treasury (signed sdk networkPassphrase treasury envelopeXdr) ∧
      (progress.thresholdMet = true ↔ requiredThreshold treasury ≤ progress.collectedWeight) := by
  rw [count,countMultisigSignatures] at counts
  cases read : sdk.fromXDR envelopeXdr networkPassphrase with
  | error message =>
    rw [read] at counts
    cases counts
  | ok parsed =>
    rw [read] at counts
    dsimp only at counts
    cases loop : countSignatures sdk (sdk.hash networkPassphrase parsed.innerTransaction.body) treasury.signers
        parsed.innerTransaction.signatures with
    | error message =>
      rw [loop] at counts
      cases counts
    | ok counted =>
      rw [loop] at counts
      cases counts
      obtain rfl := countSignatures_ok loop
      have members : ∀ key, key ∈ (matching (sdk.signs (sdk.hash networkPassphrase parsed.innerTransaction.body))
          (keys treasury.signers) parsed.innerTransaction.signatures).served ↔
            signed sdk networkPassphrase treasury envelopeXdr key = true := by
        intro key
        rw [mem_served_iff (single_of_oneSigner (one envelopeXdr parsed read))]
        simp [signed,read]
      refine ⟨members,?_,by simp [progressOf,requiredThreshold]⟩
      have same : (fun s : MultisigSigner => decide (s.key ∈ (matching (sdk.signs
          (sdk.hash networkPassphrase parsed.innerTransaction.body)) (keys treasury.signers) parsed.innerTransaction.signatures).served)) =
            fun s => signed sdk networkPassphrase treasury envelopeXdr s.key := by
        funext s
        rw [Bool.eq_iff_iff,decide_eq_true_iff]
        exact members s.key
      show ((treasury.signers.filter fun s => decide (s.key ∈ _)).map (·.weight)).sum = _
      rw [countOf,same]
      rfl

theorem weightWhere_mono {has more : String → Bool} (grows : ∀ key, has key = true → more key = true) :
    weightWhere treasury has ≤ weightWhere treasury more := by
  have sub : (treasury.signers.filter fun s => has s.key).Sublist (treasury.signers.filter fun s => more s.key) :=
    List.monotone_filter_right _ fun s => grows s.key
  exact (sub.map _).sum_le_sum fun _ _ => Nat.zero_le _

end Envelopes

/-- The envelopes that were submitted for a transaction. -/
def submissions (w : World) (hash : String) : List String := (w.submitted.filter fun entry => entry.1 = hash).map Prod.snd

/-- The signers that were told, in order. -/
def told (w : World) (hash : String) : List String :=
  (w.notified.filter fun payload => payload.innerTxHash = hash).map SignerApprovalNeeded.signerPublicKey

section Rows
variable {w : World} {hash : String}

theorem row_hash {row : PendingMultisigTransaction} (found : w.row hash = some row) : row.innerTxHash = hash := by
  simpa using List.find?_some found

variable {other : String} {change : PendingMultisigTransaction → PendingMultisigTransaction}

theorem row_write (keeps : ∀ row, (change row).innerTxHash = row.innerTxHash) :
    (w.write other change).row hash = if other = hash then (w.row hash).map change else w.row hash := by
  have same : ∀ row : PendingMultisigTransaction,
      (if row.innerTxHash = other then change row else row).innerTxHash = row.innerTxHash := by
    intro row
    split
    · exact keeps row
    · rfl
  have mapped : (w.write other change).row hash = (w.row hash).map fun row => if row.innerTxHash = other then change row else row := by
    simp only [World.row,World.write,List.find?_map]
    congr 2
    funext row
    simp only [Function.comp_apply,same]
  rw [mapped]
  by_cases own : other = hash
  · rw [if_pos own]
    cases found : w.row hash with
    | none => rfl
    | some row => simp [row_hash found,own]
  · rw [if_neg own]
    cases found : w.row hash with
    | none => rfl
    | some row => simp [row_hash found,Ne.symm own]

theorem row_updateRow (keeps : ∀ row, (change row).innerTxHash = row.innerTxHash) :
    (w.updateRow other change).2.row hash = if other = hash then (w.row hash).map change else w.row hash := by
  rw [World.updateRow]
  split
  next absent =>
    by_cases own : other = hash
    · rw [if_pos own,← own,absent]
      rfl
    · rw [if_neg own]
  next => exact row_write keeps

def rowAfter (hash : String) (before : Option PendingMultisigTransaction) : Query → Option PendingMultisigTransaction
  | .upsert other data => if other = hash then some ((before.map data.update).getD (data.create hash)) else before
  | .updateProgress pendingTx data => if pendingTx.innerTxHash = hash then before.map data.update else before
  | .updateNotified pendingTx notifiedJson =>
    if pendingTx.innerTxHash = hash then before.map fun row => { row with notifiedJson } else before
  | _ => before

section Upsert
variable {other : String} {data : SubmissionData}

theorem upsert_absent (absent : w.row other = none) : (exec w (.upsert other data)).2.rows = w.rows ++ [data.create other] := by
  simp only [exec,absent]

theorem upsert_found {row : PendingMultisigTransaction} (found : w.row other = some row) :
    (exec w (.upsert other data)).2.rows = (w.write other data.update).rows := by
  simp only [exec,found]

theorem upsert_notified : (exec w (.upsert other data)).2.notified = w.notified := by
  cases found : w.row other with
  | none => simp only [exec,found]
  | some row => simp only [exec,found,World.write]

end Upsert

theorem exec_row (q : Query) : (exec w q).2.row hash = rowAfter hash (w.row hash) q := by
  cases q with
  | upsert other data =>
    rw [rowAfter]
    cases found : w.row other with
    | none =>
      have appended : (exec w (.upsert other data)).2.row hash =
          (w.row hash).or (if other = hash then some (data.create other) else none) := by
        rw [World.row,upsert_absent found,List.find?_append,List.find?_singleton]
        congr 1
        by_cases own : other = hash
        · simp [own,SubmissionData.create]
        · simp [own,SubmissionData.create]
      rw [appended]
      by_cases own : other = hash
      · subst own
        simp [found]
      · simp [own]
    | some row =>
      have written : (exec w (.upsert other data)).2.row hash = if other = hash then (w.row hash).map data.update else w.row hash := by
        rw [World.row,upsert_found found]
        exact row_write fun _ => rfl
      rw [written]
      by_cases own : other = hash
      · subst own
        simp [found]
      · simp [own]
  | updateProgress pendingTx data => exact row_updateRow fun _ => rfl
  | updateNotified pendingTx notifiedJson => exact row_updateRow fun _ => rfl
  | _ => rfl

theorem updateRow_kept :
    (w.updateRow other change).2.submitted = w.submitted ∧ (w.updateRow other change).2.notified = w.notified := by
  rw [World.updateRow]
  split <;> exact ⟨rfl,rfl⟩

theorem exec_submissions (q : Query) : submissions (exec w q).2 hash =
    submissions w hash ++ (match q with
      | .upsert other data => if other = hash then [data.envelopeXdr] else []
      | _ => []) := by
  cases q with
  | upsert other data =>
    have stored : (exec w (.upsert other data)).2.submitted = w.submitted ++ [(other,data.envelopeXdr)] := rfl
    rw [submissions,stored,List.filter_append,List.map_append,← submissions]
    by_cases own : other = hash
    · simp [own]
    · simp [own]
  | updateProgress pendingTx data =>
    rw [submissions,show (exec w (.updateProgress pendingTx data)).2.submitted = w.submitted from updateRow_kept.1,List.append_nil]
    rfl
  | updateNotified pendingTx notifiedJson =>
    rw [submissions,show (exec w (.updateNotified pendingTx notifiedJson)).2.submitted = w.submitted from updateRow_kept.1,
      List.append_nil]
    rfl
  | _ => exact (List.append_nil _).symm

theorem exec_told (q : Query) : told (exec w q).2 hash =
    told w hash ++ (match q with
      | .notify payload => if payload.innerTxHash = hash then [payload.signerPublicKey] else []
      | _ => []) := by
  cases q with
  | upsert other data =>
    rw [told,upsert_notified,List.append_nil]
    rfl
  | notify payload =>
    have given : (exec w (.notify payload)).2.notified = w.notified ++ [payload] := rfl
    rw [told,given,List.filter_append,List.map_append,← told]
    by_cases own : payload.innerTxHash = hash
    · simp [own]
    · simp [own]
  | updateProgress pendingTx data =>
    rw [told,show (exec w (.updateProgress pendingTx data)).2.notified = w.notified from updateRow_kept.2,List.append_nil]
    rfl
  | updateNotified pendingTx notifiedJson =>
    rw [told,show (exec w (.updateNotified pendingTx notifiedJson)).2.notified = w.notified from updateRow_kept.2,List.append_nil]
    rfl
  | _ => exact (List.append_nil _).symm

end Rows

/-- How far a pass is with a transaction: it has read whom was told before, or it has written its
    progress and told some signers more. -/
inductive Place where
  | away
  | read (previous : List String)
  | telling (previous more : List String)

/-- Nothing of the transaction is still to be written. -/
def Place.Clear : Place → Prop
  | .away => True
  | .read _ => False
  | .telling _ more => more = []

section Places
variable (hash : String)

def after (place : Place) (q : Query) (answer : Except String (Value q)) : Place :=
  match q, answer with
  | .findNotified other, .ok existing => if other = hash then .read (Option.getD existing []) else .away
  | .updateProgress pendingTx _, .ok _ =>
    if pendingTx.innerTxHash = hash then
      match place with
      | .read previous => .telling previous []
      | _ => .away
    else .away
  | .notify payload, .ok _ =>
    if payload.innerTxHash = hash then
      match place with
      | .telling previous more => .telling previous (more ++ [payload.signerPublicKey])
      | _ => .away
    else .away
  | _, _ => .away

section Allowed
variable (sdk : Sdk) (networkPassphrase : String) (treasury : Treasury)

/-- What is written was counted, and a signer is told that has not been told as far as the pass knows. -/
def allowed (place : Place) : Query → Prop
  | .upsert _ data => place.Clear ∧ ∃ progress, count sdk networkPassphrase treasury data.envelopeXdr = .ok progress ∧
      data = submissionData data.envelopeXdr progress
  | .findPending => place.Clear
  | .findNotified _ => place.Clear
  | .updateProgress pendingTx data => (∃ progress, count sdk networkPassphrase treasury pendingTx.envelopeXdr = .ok progress ∧
      data = progressData progress) ∧
      if pendingTx.innerTxHash = hash then ∃ previous, place = .read previous else place.Clear
  | .notify payload =>
    if payload.innerTxHash = hash then
      ∃ previous more, place = .telling previous more ∧ payload.signerPublicKey ∉ previous ∧ payload.signerPublicKey ∉ more
    else place.Clear
  | .updateNotified pendingTx notifiedJson =>
    if pendingTx.innerTxHash = hash then
      ∃ previous more, place = .telling previous more ∧ ∀ key, key ∈ previous ∨ key ∈ more → key ∈ notifiedJson
    else place.Clear

variable {hash} {sdk networkPassphrase treasury}

abbrev Runs (hash : String) (sdk : Sdk) (networkPassphrase : String) (treasury : Treasury) {α : Type} (x : Code α)
    (place : Place) (post : Except String α → Place → Prop) : Prop :=
  Follows (allowed hash sdk networkPassphrase treasury) (after hash) post place x.run

variable {pendingTx : PendingTxRecord}

theorem notify_others (other : pendingTx.innerTxHash ≠ hash) (progress : MultisigSignatureProgress)
    (watchers : List SignerWatcher) {place : Place} (clear : place.Clear) :
    Runs hash sdk networkPassphrase treasury (notifyAll treasury pendingTx progress watchers) place fun _ there => there.Clear := by
  induction watchers generalizing place with
  | nil => exact clear
  | cons watcher rest ih =>
    have apart : (approvalNeeded treasury pendingTx progress watcher).innerTxHash ≠ hash := other
    rw [notifyAll]
    refine follows_bindCode.mpr (follows_query.mpr ⟨?_,?_⟩)
    · rw [allowed,if_neg apart]
      exact clear
    · rintro (message | _)
      · trivial
      · have moved : after hash place (.notify (approvalNeeded treasury pendingTx progress watcher)) (.ok ()) = .away := if_neg apart
        show Follows _ _ _ (after hash place (.notify (approvalNeeded treasury pendingTx progress watcher)) (.ok ())) _
        rw [moved]
        exact ih trivial

variable {previous : List String}

theorem notify_all (own : pendingTx.innerTxHash = hash) (progress : MultisigSignatureProgress) {watchers : List SignerWatcher}
    {more : List String} (distinct : (watchers.map SignerWatcher.signerPublicKey).Nodup)
    (new : ∀ w ∈ watchers, w.signerPublicKey ∉ previous ∧ w.signerPublicKey ∉ more) :
    Runs hash sdk networkPassphrase treasury (notifyAll treasury pendingTx progress watchers) (.telling previous more)
      fun ended there => match ended with
        | .ok _ => there = .telling previous (more ++ watchers.map SignerWatcher.signerPublicKey)
        | .error _ => there = .away := by
  induction watchers generalizing more with
  | nil => exact congrArg _ (List.append_nil more).symm
  | cons watcher rest ih =>
    obtain ⟨notPrevious,notMore⟩ := new watcher List.mem_cons_self
    obtain ⟨notRest,others⟩ := List.nodup_cons.mp distinct
    have same : (approvalNeeded treasury pendingTx progress watcher).innerTxHash = hash := own
    rw [notifyAll]
    refine follows_bindCode.mpr (follows_query.mpr ⟨?_,?_⟩)
    · rw [allowed,if_pos same]
      exact ⟨previous,more,rfl,notPrevious,notMore⟩
    · rintro (message | _)
      · rfl
      · have moved : after hash (.telling previous more) (.notify (approvalNeeded treasury pendingTx progress watcher)) (.ok ()) =
            .telling previous (more ++ [watcher.signerPublicKey]) := if_pos same
        show Follows _ _ _
          (after hash (.telling previous more) (.notify (approvalNeeded treasury pendingTx progress watcher)) (.ok ())) _
        rw [moved]
        have later := @ih (more ++ [watcher.signerPublicKey]) others ?_
        · rw [List.append_assoc] at later
          exact later
        · intro w listed
          refine ⟨(new w (List.mem_cons_of_mem _ listed)).1,?_⟩
          rw [List.mem_append,List.mem_singleton]
          rintro (among | same)
          · exact (new w (List.mem_cons_of_mem _ listed)).2 among
          · exact notRest (same ▸ List.mem_map_of_mem listed)

theorem toNotify_new {progress : MultisigSignatureProgress} :
    ((toNotify treasury progress previous).map SignerWatcher.signerPublicKey).Nodup ∧
      ∀ w ∈ toNotify treasury progress previous, w.signerPublicKey ∉ previous := by
  constructor
  · exact treasury.distinct.sublist (List.filter_sublist.map _)
  · intro w listed
    have kept := (List.mem_filter.mp listed).2
    simp only [Bool.and_eq_true,decide_eq_true_eq] at kept
    exact kept.2

theorem notified_follows (own : pendingTx.innerTxHash = hash) (progress : MultisigSignatureProgress) (previous : List String) :
    Runs hash sdk networkPassphrase treasury (do
      notifyAll treasury pendingTx progress (toNotify treasury progress previous)
      if (toNotify treasury progress previous).length > 0 then
        ask (.updateNotified pendingTx
          (previous ++ (toNotify treasury progress previous).map SignerWatcher.signerPublicKey).eraseDups)
        pure progress
      else pure progress) (.telling previous []) fun _ there => there.Clear := by
  have new : ∀ w ∈ toNotify treasury progress previous, w.signerPublicKey ∉ previous ∧ w.signerPublicKey ∉ [] :=
    fun w listed => ⟨toNotify_new.2 w listed,List.not_mem_nil⟩
  refine follows_bindCode.mpr (follows_mono ?_ (notify_all own progress toNotify_new.1 new))
  rintro (message | _) there ended
  · dsimp only at ended
    rw [ended]
    trivial
  · dsimp only at ended
    rw [ended,List.nil_append]
    by_cases some_ : (toNotify treasury progress previous).length > 0
    · rw [if_pos some_]
      refine follows_bindCode.mpr (follows_query.mpr ⟨?_,?_⟩)
      · rw [allowed,if_pos own]
        refine ⟨previous,_,rfl,fun key known => ?_⟩
        rw [List.mem_eraseDups,List.mem_append]
        exact known
      · rintro (message | _)
        · trivial
        · trivial
    · rw [if_neg some_]
      have none_ : toNotify treasury progress previous = [] := List.length_eq_zero_iff.mp (Nat.eq_zero_of_not_pos some_)
      show _ = []
      rw [none_]
      rfl

theorem processPendingTransaction_own (own : pendingTx.innerTxHash = hash) {place : Place} (clear : place.Clear) :
    Runs hash sdk networkPassphrase treasury
      (processPendingTransaction sdk networkPassphrase treasury pendingTx) place fun _ there => there.Clear := by
  rw [processPendingTransaction]
  cases counts : count sdk networkPassphrase treasury pendingTx.envelopeXdr with
  | error message => exact clear
  | ok progress =>
    refine follows_bindCode.mpr (show Follows _ _ _ place _ from follows_bindCode.mpr (follows_query.mpr ⟨clear,?_⟩))
    rintro (message | existing)
    · trivial
    have moved : after hash place (.findNotified pendingTx.innerTxHash) (.ok existing) = .read (Option.getD existing []) := if_pos own
    rw [moved]
    refine follows_bindCode.mpr (follows_query.mpr ⟨⟨⟨progress,counts,rfl⟩,?_⟩,?_⟩)
    · rw [if_pos own]
      exact ⟨_,rfl⟩
    rintro (message | u)
    · trivial
    have written : after hash (.read (Option.getD existing [])) (.updateProgress pendingTx (progressData progress)) (.ok u) =
        .telling (Option.getD existing []) [] := if_pos own
    show Follows _ _ _ (after hash (.read (Option.getD existing [])) (.updateProgress pendingTx (progressData progress)) (.ok u)) _
    rw [written]
    by_cases met : progress.thresholdMet = true
    · rw [if_pos met]
      exact rfl
    · rw [if_neg met]
      exact notified_follows own progress _

theorem processPendingTransaction_other (other : pendingTx.innerTxHash ≠ hash) {place : Place} (clear : place.Clear) :
    Runs hash sdk networkPassphrase treasury
      (processPendingTransaction sdk networkPassphrase treasury pendingTx) place fun _ there => there.Clear := by
  rw [processPendingTransaction]
  cases counts : count sdk networkPassphrase treasury pendingTx.envelopeXdr with
  | error message => exact clear
  | ok progress =>
    refine follows_bindCode.mpr (show Follows _ _ _ place _ from follows_bindCode.mpr (follows_query.mpr ⟨clear,?_⟩))
    rintro (message | existing)
    · trivial
    have moved : after hash place (.findNotified pendingTx.innerTxHash) (.ok existing) = .away := if_neg other
    rw [moved]
    refine follows_bindCode.mpr (follows_query.mpr ⟨⟨⟨progress,counts,rfl⟩,?_⟩,?_⟩)
    · rw [if_neg other]
      trivial
    rintro (message | u)
    · trivial
    have written : after hash .away (.updateProgress pendingTx (progressData progress)) (.ok u) = .away := if_neg other
    show Follows _ _ _ (after hash .away (.updateProgress pendingTx (progressData progress)) (.ok u)) _
    rw [written]
    by_cases met : progress.thresholdMet = true
    · rw [if_pos met]
      trivial
    · rw [if_neg met]
      refine follows_bindCode.mpr (follows_mono ?_ (notify_others other progress _ trivial))
      rintro (message | _) there clearThere
      · exact clearThere
      · dsimp only
        split
        · refine follows_bindCode.mpr (follows_query.mpr ⟨?_,?_⟩)
          · rw [allowed,if_neg other]
            exact clearThere
          · rintro (message | _)
            · trivial
            · trivial
        · exact clearThere

/-- A pass follows; wherever it is cut off, its place says what it has done. -/
theorem processAll_follows (pendingTxs : List PendingTxRecord) {place : Place} (clear : place.Clear) :
    Runs hash sdk networkPassphrase treasury (processAll sdk networkPassphrase treasury pendingTxs) place
      fun _ there => there.Clear := by
  induction pendingTxs generalizing place with
  | nil => exact clear
  | cons pendingTx rest ih =>
    have process : Runs hash sdk networkPassphrase treasury (processPendingTransaction sdk networkPassphrase treasury pendingTx) place
        fun _ there => there.Clear := by
      by_cases own : pendingTx.innerTxHash = hash
      · exact processPendingTransaction_own own clear
      · exact processPendingTransaction_other own clear
    rw [processAll]
    refine follows_bindCode.mpr (follows_caught.mpr (follows_bindCode.mpr (follows_mono ?_ process)))
    rintro (message | _) there clearThere
    · exact ih clearThere
    · exact ih clearThere

theorem program_follows (task : Task) :
    Follows (allowed hash sdk networkPassphrase treasury) (after hash) (fun _ there => there.Clear) .away
      (task.program sdk networkPassphrase treasury) := by
  cases task with
  | pass =>
    exact follows_asked trivial (fun _ => trivial) fun pendingTxs => processAll_follows pendingTxs trivial
  | track treasuryPublicKey envelopeXdr =>
    show Runs hash sdk networkPassphrase treasury
      (trackPendingTransaction sdk networkPassphrase treasury treasuryPublicKey envelopeXdr) .away fun _ there => there.Clear
    rw [trackPendingTransaction]
    by_cases unknown : treasury.publicKey ≠ treasuryPublicKey
    · rw [if_pos unknown]
      trivial
    · rw [if_neg unknown]
      cases hashed : innerTxHash sdk networkPassphrase envelopeXdr with
      | error message => trivial
      | ok inner =>
        cases counts : count sdk networkPassphrase treasury envelopeXdr with
        | error message => trivial
        | ok progress =>
          refine ⟨⟨trivial,progress,counts,rfl⟩,?_⟩
          rintro (message | _)
          · trivial
          · trivial

end Allowed
end Places

end StellarAlerts.WatcherPlaces
