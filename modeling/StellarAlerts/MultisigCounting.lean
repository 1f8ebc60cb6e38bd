import Mathlib
import StellarAlerts.GreedyMatching
import StellarAlerts.StellarEnvelopes

/-!
How much signing weight an envelope has collected, as the API and as the command line count it.
The API gives each signature to the first signer that has none yet, the command line looks for a
signature of each signer; both come to the weight of the signers that have signed.
-/
namespace StellarAlerts.MultisigCounting
open GreedyMatching StellarEnvelopes

/-! ### The API -/

structure MultisigSigner where
  key : String
  weight : Nat
deriving DecidableEq, Repr

structure MultisigThresholds where
  low : Nat
  medium : Nat
  high : Nat
deriving DecidableEq, Repr

inductive MultisigThresholdLevel where
  | low
  | medium
  | high
deriving DecidableEq, Repr

structure MultisigSignatureProgress where
  requiredThreshold : Nat
  collectedWeight : Nat
  signedBy : List String
  remainingSigners : List MultisigSigner
  thresholdMet : Bool
  totalSigners : Nat
  validSignatureCount : Nat
  invalidSignatureCount : Nat
deriving DecidableEq, Repr

def MultisigThresholds.required (thresholds : MultisigThresholds) : MultisigThresholdLevel → Nat
  | .low => thresholds.low
  | .high => thresholds.high
  | .medium => thresholds.medium

/-- The loop over the signers: the key that the signature is counted for. -/
def matchSigner (sdk : Sdk) (txHash : List UInt8) (decoratedSig : DecoratedSignature) (signedBy : List String) :
    List MultisigSigner → Except String (Option String)
  | [] => .ok none
  | signer :: rest =>
    if signer.key ∈ signedBy then matchSigner sdk txHash decoratedSig signedBy rest
    else
      match sdk.fromPublicKey signer.key with
      -- not an ed25519 key
      | none => matchSigner sdk txHash decoratedSig signedBy rest
      | some keypair =>
        if signatureHint keypair ≠ decoratedSig.hint then matchSigner sdk txHash decoratedSig signedBy rest
        else
          match sdk.verify keypair txHash decoratedSig.signature with
          | .error message => .error message
          | .ok true => .ok (some signer.key)
          | .ok false => matchSigner sdk txHash decoratedSig signedBy rest

structure SignatureCount where
  signedBy : List String
  invalidSignatureCount : Nat
deriving DecidableEq, Repr

/-- One round of the loop over the signatures. -/
def countSignature (sdk : Sdk) (txHash : List UInt8) (signers : List MultisigSigner) (counted : SignatureCount)
    (decoratedSig : DecoratedSignature) : Except String SignatureCount :=
  match matchSigner sdk txHash decoratedSig counted.signedBy signers with
  | .error message => .error message
  | .ok (some key) => .ok { counted with signedBy := counted.signedBy ++ [key] }
  | .ok none => .ok { counted with invalidSignatureCount := counted.invalidSignatureCount + 1 }

def countSignatures (sdk : Sdk) (txHash : List UInt8) (signers : List MultisigSigner) (signatures : List DecoratedSignature) :
    Except String SignatureCount :=
  signatures.foldlM (countSignature sdk txHash signers) ⟨[],0⟩

/-- What is made of the loop's result. -/
def progressOf (signers : List MultisigSigner) (requiredThreshold : Nat) (counted : SignatureCount) :
    MultisigSignatureProgress :=
  let collectedWeight := ((signers.filter fun s => s.key ∈ counted.signedBy).map (·.weight)).sum
  { requiredThreshold
    collectedWeight
    signedBy := counted.signedBy
    remainingSigners := signers.filter fun s => s.key ∉ counted.signedBy
    thresholdMet := requiredThreshold ≤ collectedWeight
    totalSigners := signers.length
    validSignatureCount := counted.signedBy.length
    invalidSignatureCount := counted.invalidSignatureCount }

def countMultisigSignatures (sdk : Sdk) (envelopeXdr : String) (signers : List MultisigSigner)
    (thresholds : MultisigThresholds) (networkPassphrase : String) (thresholdLevel : MultisigThresholdLevel) :
    Except String MultisigSignatureProgress :=
  match sdk.fromXDR envelopeXdr networkPassphrase with
  | .error message => .error message
  | .ok parsed =>
    let tx := parsed.innerTransaction
    let txHash := sdk.hash networkPassphrase tx.body
    match countSignatures sdk txHash signers tx.signatures with
    | .error message => .error message
    | .ok counted => .ok (progressOf signers (thresholds.required thresholdLevel) counted)

/-! ### The command line -/

structure SignerWeight where
  key : String
  weight : Nat
  type : String
deriving DecidableEq, Repr

structure CollectedSigner where
  key : String
  weight : Nat
deriving DecidableEq, Repr

/-- none where the key cannot be decoded -/
def signerHint (sdk : Sdk) (publicKey : String) : Option (List UInt8) :=
  (sdk.decodeEd25519PublicKey publicKey).map lastFour

/-- The loop over the signatures for one signer; a signature on which `verify` throws is passed over. -/
def collectSigner (sdk : Sdk) (hash : List UInt8) (signatures : List DecoratedSignature) (signer : SignerWeight) :
    Option CollectedSigner :=
  match signerHint sdk signer.key with
  | none => none
  | some hint =>
    match sdk.fromPublicKey signer.key with
    -- not an ed25519 key
    | none => none
    | some keypair =>
      if signatures.any fun sig => sig.hint = hint && sdk.verifies keypair hash sig.signature then
        some ⟨signer.key,signer.weight⟩
      else none

def computeCollectedWeight (sdk : Sdk) (networkPassphrase : String) (tx : Envelope) (signers : List SignerWeight) :
    List CollectedSigner :=
  if tx.signatures = [] then []
  else signers.filterMap (collectSigner sdk (sdk.envelopeHash networkPassphrase tx) tx.signatures)

def SignerWeight.forApi (signer : SignerWeight) : MultisigSigner := ⟨signer.key,signer.weight⟩

/-! ### The weight of those who have signed -/

/-- The signers of whom some signature with their hint verifies. -/
def signersOf (sdk : Sdk) (hash : List UInt8) (signatures : List DecoratedSignature) (signers : List MultisigSigner) :
    List MultisigSigner :=
  signers.filter fun s => signatures.any (sdk.signs hash s.key)

def weightOf (signers : List MultisigSigner) : Nat := (signers.map (·.weight)).sum

section Api
variable {sdk : Sdk} {txHash : List UInt8} {signers : List MultisigSigner}

def keys (signers : List MultisigSigner) : List String := signers.map (·.key)

theorem answers_tail {signer : MultisigSigner} {signatures : List DecoratedSignature}
    (answers : sdk.Answers txHash (keys (signer :: signers)) signatures) : sdk.Answers txHash (keys signers) signatures :=
  fun key listed => answers key (List.mem_cons_of_mem _ listed)

variable {decoratedSig : DecoratedSignature}

theorem matchSigner_eq (signedBy : List String) (answers : sdk.Answers txHash (keys signers) [decoratedSig]) :
    matchSigner sdk txHash decoratedSig signedBy signers =
      .ok (taker (sdk.signs txHash) (keys signers) signedBy decoratedSig) := by
  induction signers with
  | nil => rfl
  | cons signer rest ih =>
    have later := ih (answers_tail answers)
    rw [keys,List.map_cons,taker,List.find?_cons,← keys,← taker]
    by_cases counted : signer.key ∈ signedBy
    · simp only [matchSigner,counted,↓reduceIte,later,not_true_eq_false,false_and,decide_false]
    · cases keyed : sdk.fromPublicKey signer.key with
      | none =>
        have unsigned : sdk.signs txHash signer.key decoratedSig = false := by rw [Sdk.signs,keyed]
        simp only [matchSigner,counted,↓reduceIte,keyed,later,unsigned,Bool.false_eq_true,and_false,decide_false]
      | some keypair =>
        obtain ⟨verified,answer⟩ := answers signer.key (List.mem_cons_self ..) keypair keyed decoratedSig
          (List.mem_singleton_self _)
        have signs : sdk.signs txHash signer.key decoratedSig = (signatureHint keypair = decoratedSig.hint && verified) := by
          rw [Sdk.signs,keyed]
          simp only [Sdk.verifies,answer]
        by_cases hint : signatureHint keypair = decoratedSig.hint
        · cases verified with
          | true => simp [matchSigner,counted,keyed,hint,answer,signs]
          | false => simp [matchSigner,counted,keyed,hint,answer,signs,later]
        · simp [matchSigner,counted,keyed,hint,signs,later]

/-- The loop's result as it stands for a matching. -/
def countOf (m : Matching String) : SignatureCount := ⟨m.served,m.rejected⟩

theorem countSignature_eq (m : Matching String) (answers : sdk.Answers txHash (keys signers) [decoratedSig]) :
    countSignature sdk txHash signers (countOf m) decoratedSig =
      .ok (countOf (m.give (sdk.signs txHash) (keys signers) decoratedSig)) := by
  rw [countSignature,matchSigner_eq (countOf m).signedBy answers,Matching.give,countOf]
  cases taker (sdk.signs txHash) (keys signers) m.served decoratedSig with
  | none => rfl
  | some key => rfl

theorem countSignatures_eq {signatures : List DecoratedSignature} (answers : sdk.Answers txHash (keys signers) signatures) :
    countSignatures sdk txHash signers signatures =
      .ok (countOf (matching (sdk.signs txHash) (keys signers) signatures)) := by
  induction signatures using List.reverseRecOn with
  | nil => rfl
  | append_singleton signatures last ih =>
    have earlier : sdk.Answers txHash (keys signers) signatures := fun key listed keypair keyed sig member =>
      answers key listed keypair keyed sig (List.mem_append_left _ member)
    have now : sdk.Answers txHash (keys signers) [last] := fun key listed keypair keyed sig member =>
      answers key listed keypair keyed sig (List.mem_append_right _ member)
    have before := ih earlier
    rw [countSignatures] at before ⊢
    rw [List.foldlM_append,before,matching_concat]
    simp only [List.foldlM_cons,List.foldlM_nil,bind,Except.bind,pure,Except.pure,countSignature_eq _ now]

theorem single_of_oneSigner {signatures : List DecoratedSignature} (one : sdk.OneSigner txHash (keys signers) signatures) :
    Single (sdk.signs txHash) (keys signers) signatures := by
  intro sig listed key isKey other isOther first second
  obtain ⟨keypair,keyed,_,verified⟩ := Sdk.signs_iff.mp first
  obtain ⟨otherPair,otherKeyed,_,otherVerified⟩ := Sdk.signs_iff.mp second
  exact one sig listed key isKey other isOther keypair otherPair keyed otherKeyed verified otherVerified

theorem mem_counted_iff {signatures : List DecoratedSignature} (one : sdk.OneSigner txHash (keys signers) signatures)
    {signer : MultisigSigner} (listed : signer ∈ signers) :
    signer.key ∈ (matching (sdk.signs txHash) (keys signers) signatures).served ↔
      signatures.any (sdk.signs txHash signer.key) = true := by
  rw [mem_served_iff (single_of_oneSigner one),List.any_eq_true]
  exact and_iff_right (List.mem_map_of_mem listed)

theorem counted_filter {signatures : List DecoratedSignature} (one : sdk.OneSigner txHash (keys signers) signatures) :
    (signers.filter fun s => s.key ∈ (matching (sdk.signs txHash) (keys signers) signatures).served) =
      signersOf sdk txHash signatures signers := by
  refine List.filter_congr fun signer listed => ?_
  rw [Bool.eq_iff_iff,decide_eq_true_iff]
  exact mem_counted_iff one listed

theorem counted_partition (distinct : (keys signers).Nodup) (signatures : List DecoratedSignature) :
    ((matching (sdk.signs txHash) (keys signers) signatures).served ++
      keys (signers.filter fun s => s.key ∉ (matching (sdk.signs txHash) (keys signers) signatures).served)).Perm
        (keys signers) := by
  have split : keys (signers.filter fun s => s.key ∉ (matching (sdk.signs txHash) (keys signers) signatures).served) =
      (keys signers).filter fun key => key ∉ (matching (sdk.signs txHash) (keys signers) signatures).served := by
    rw [keys,keys,List.filter_map]
    rfl
  rw [split]
  refine (List.perm_ext_iff_of_nodup ?_ distinct).mpr fun key => ?_
  · refine List.nodup_append.mpr ⟨served_nodup signatures,distinct.filter _,?_⟩
    rintro counted isCounted other isOther rfl
    exact of_decide_eq_true (List.mem_filter.mp isOther).2 isCounted
  · rw [List.mem_append,List.mem_filter,decide_eq_true_iff]
    constructor
    · rintro (counted | ⟨listed,_⟩)
      · exact (served_fits counted).1
      · exact listed
    · intro listed
      by_cases counted : key ∈ (matching (sdk.signs txHash) (keys signers) signatures).served
      · exact .inl counted
      · exact .inr ⟨listed,counted⟩

theorem signersOf_mono {signatures more : List DecoratedSignature} (subset : signatures ⊆ more) :
    (signersOf sdk txHash signatures signers).Sublist (signersOf sdk txHash more signers) := by
  refine List.monotone_filter_right signers fun signer signed => ?_
  obtain ⟨sig,listed,signs⟩ := List.any_eq_true.mp signed
  exact List.any_eq_true.mpr ⟨sig,subset listed,signs⟩

theorem weight_cons (signatures : List DecoratedSignature) (signer : MultisigSigner) (rest : List MultisigSigner) :
    weightOf (signersOf sdk txHash signatures (signer :: rest)) =
      (if signatures.any (sdk.signs txHash signer.key) then signer.weight else 0) +
        weightOf (signersOf sdk txHash signatures rest) := by
  rw [signersOf,List.filter_cons,← signersOf]
  by_cases signed : signatures.any (sdk.signs txHash signer.key) = true
  · rw [if_pos signed,if_pos signed]
    rfl
  · rw [if_neg signed,if_neg signed]
    exact (Nat.zero_add _).symm

theorem weight_mono {signatures more : List DecoratedSignature} (subset : signatures ⊆ more) :
    weightOf (signersOf sdk txHash signatures signers) ≤ weightOf (signersOf sdk txHash more signers) :=
  ((signersOf_mono subset).map _).sum_le_sum fun _ _ => Nat.zero_le _

end Api

section CommandLine
variable {sdk : Sdk}

def CollectedSigner.signer (collected : CollectedSigner) : MultisigSigner := ⟨collected.key,collected.weight⟩

theorem signerHint_eq {key : String} {keypair : List UInt8} (keyed : sdk.fromPublicKey key = some keypair) :
    signerHint sdk key = some (signatureHint keypair) := by
  unfold Sdk.fromPublicKey at keyed
  split at keyed
  · rename_i publicKey decoded
    rw [signerHint,decoded]
    split at keyed
    · exact congrArg _ (congrArg lastFour (Option.some.inj keyed))
    · cases keyed
  · cases keyed

theorem collectSigner_eq (hash : List UInt8) (signatures : List DecoratedSignature) (signer : SignerWeight) :
    (collectSigner sdk hash signatures signer).map CollectedSigner.signer =
      if signatures.any (sdk.signs hash signer.key) then some signer.forApi else none := by
  cases keyed : sdk.fromPublicKey signer.key with
  | none =>
    have unsigned : signatures.any (sdk.signs hash signer.key) = false := by
      refine List.any_eq_false.mpr fun sig _ => ?_
      rw [Sdk.signs,keyed]
      exact Bool.false_ne_true
    rw [unsigned,collectSigner]
    cases signerHint sdk signer.key with
    | none => rfl
    | some hint =>
      simp only [keyed]
      rfl
  | some keypair =>
    have same : (fun sig : DecoratedSignature => decide (sig.hint = signatureHint keypair) &&
        sdk.verifies keypair hash sig.signature) = sdk.signs hash signer.key := by
      funext sig
      rw [Sdk.signs,keyed]
      simp only [eq_comm]
    rw [collectSigner,signerHint_eq keyed]
    simp only [keyed,same]
    split
    · rfl
    · rfl

theorem collectSigner_nil (hash : List UInt8) (signer : SignerWeight) : collectSigner sdk hash [] signer = none := by
  unfold collectSigner
  cases signerHint sdk signer.key with
  | none => rfl
  | some hint =>
    cases sdk.fromPublicKey signer.key with
    | none => rfl
    | some keypair => rfl

theorem computeCollectedWeight_filterMap (networkPassphrase : String) (tx : Envelope) (signers : List SignerWeight) :
    computeCollectedWeight sdk networkPassphrase tx signers =
      signers.filterMap (collectSigner sdk (sdk.envelopeHash networkPassphrase tx) tx.signatures) := by
  rw [computeCollectedWeight]
  split
  · rename_i unsigned
    rw [unsigned]
    exact (List.filterMap_eq_nil_iff.mpr fun signer _ => collectSigner_nil _ signer).symm
  · rfl

theorem computeCollectedWeight_eq (networkPassphrase : String) (tx : Envelope) (signers : List SignerWeight) :
    (computeCollectedWeight sdk networkPassphrase tx signers).map CollectedSigner.signer =
      signersOf sdk (sdk.envelopeHash networkPassphrase tx) tx.signatures (signers.map SignerWeight.forApi) := by
  rw [computeCollectedWeight_filterMap,List.map_filterMap,signersOf,List.filter_map,← List.filterMap_eq_map,
    ← List.filterMap_eq_filter,List.filterMap_filterMap]
  refine List.filterMap_congr fun signer _ => ?_
  rw [collectSigner_eq]
  cases signed : tx.signatures.any (sdk.signs (sdk.envelopeHash networkPassphrase tx) signer.key) with
  | true => simp [SignerWeight.forApi,signed]
  | false =>
    simp only [Option.guard,Function.comp_apply,SignerWeight.forApi,signed]
    rfl

theorem collectSigner_perm {first second : List DecoratedSignature} (perm : first.Perm second) (hash : List UInt8)
    (signer : SignerWeight) : collectSigner sdk hash first signer = collectSigner sdk hash second signer := by
  unfold collectSigner
  cases signerHint sdk signer.key with
  | none => rfl
  | some hint =>
    cases sdk.fromPublicKey signer.key with
    | none => rfl
    | some keypair => simp only [perm.any_eq]

theorem computeCollectedWeight_perm {tx : Transaction} {signatures : List DecoratedSignature} (perm : tx.signatures.Perm signatures)
    (networkPassphrase : String) (signers : List SignerWeight) :
    computeCollectedWeight sdk networkPassphrase (.transaction { tx with signatures }) signers =
      computeCollectedWeight sdk networkPassphrase (.transaction tx) signers := by
  rw [computeCollectedWeight_filterMap,computeCollectedWeight_filterMap]
  exact List.filterMap_congr fun signer _ => (collectSigner_perm perm _ signer).symm

theorem collected_weight (networkPassphrase : String) (tx : Envelope) (signers : List SignerWeight) :
    ((computeCollectedWeight sdk networkPassphrase tx signers).map (·.weight)).sum =
      weightOf (signersOf sdk (sdk.envelopeHash networkPassphrase tx) tx.signatures (signers.map SignerWeight.forApi)) := by
  rw [← computeCollectedWeight_eq,weightOf,List.map_map]
  rfl

end CommandLine

/-! ### Both counts -/

/-- The text is that of an ordinary envelope; `verify` answers for its signatures, and each of them
    verifies under one of the keys at most. -/
structure Ordinary (sdk : Sdk) (networkPassphrase : String) (signers : List MultisigSigner) (envelopeXdr : String)
    (tx : Transaction) : Prop where
  parsed : sdk.fromXDR envelopeXdr networkPassphrase = .ok (.transaction tx)
  answers : sdk.Answers (sdk.hash networkPassphrase tx.body) (keys signers) tx.signatures
  oneSigner : sdk.OneSigner (sdk.hash networkPassphrase tx.body) (keys signers) tx.signatures

section Ordinary
variable {sdk : Sdk} {networkPassphrase envelopeXdr : String} {signers : List MultisigSigner} {tx : Transaction}

def counted (sdk : Sdk) (networkPassphrase : String) (signers : List MultisigSigner) (tx : Transaction) : Matching String :=
  matching (sdk.signs (sdk.hash networkPassphrase tx.body)) (keys signers) tx.signatures

section
variable (ordinary : Ordinary sdk networkPassphrase signers envelopeXdr tx)
include ordinary

theorem Ordinary.count (thresholds : MultisigThresholds)
    (thresholdLevel : MultisigThresholdLevel) :
    countMultisigSignatures sdk envelopeXdr signers thresholds networkPassphrase thresholdLevel =
      .ok (progressOf signers (thresholds.required thresholdLevel)
        (countOf (counted sdk networkPassphrase signers tx))) := by
  rw [countMultisigSignatures,ordinary.parsed]
  simp only [Envelope.innerTransaction,countSignatures_eq ordinary.answers]
  rfl

theorem Ordinary.weight (requiredThreshold : Nat) :
    (progressOf signers requiredThreshold (countOf (counted sdk networkPassphrase signers tx))).collectedWeight =
      weightOf (signersOf sdk (sdk.hash networkPassphrase tx.body) tx.signatures signers) := by
  rw [← counted_filter ordinary.oneSigner]
  rfl

theorem Ordinary.of_subset {otherXdr : String}
    {signatures : List DecoratedSignature}
    (parsed : sdk.fromXDR otherXdr networkPassphrase = .ok (.transaction { tx with signatures }))
    (subset : signatures ⊆ tx.signatures) :
    Ordinary sdk networkPassphrase signers otherXdr { tx with signatures } :=
  ⟨parsed,fun key listed keypair keyed sig member => ordinary.answers key listed keypair keyed sig (subset member),
    fun sig member => ordinary.oneSigner sig (subset member)⟩

end

end Ordinary

theorem progressOf_reordered {signers : List MultisigSigner} {first second : SignatureCount}
    (perm : first.signedBy.Perm second.signedBy) (invalid : first.invalidSignatureCount = second.invalidSignatureCount)
    (requiredThreshold : Nat) :
    progressOf signers requiredThreshold second =
      { progressOf signers requiredThreshold first with signedBy := second.signedBy } := by
  have counted : (fun s : MultisigSigner => decide (s.key ∈ second.signedBy)) = fun s => decide (s.key ∈ first.signedBy) := by
    funext s
    exact decide_eq_decide.mpr perm.symm.mem_iff
  have remaining : (fun s : MultisigSigner => decide (s.key ∉ second.signedBy)) = fun s => decide (s.key ∉ first.signedBy) := by
    funext s
    exact decide_eq_decide.mpr (not_congr perm.symm.mem_iff)
  rw [progressOf,progressOf,counted,remaining,perm.length_eq,invalid]

/-- Both counts come to the weight of the signers who have signed, the API's keys and remaining signers
    are all signers, and its signatures are valid or not; the order of the signatures is seen in the
    order of the keys only, and more signatures weigh no less. -/
theorem signing_weights_agree (sdk : Sdk) (networkPassphrase : String) (signers : List SignerWeight)
    (distinct : (signers.map (·.key)).Nodup) (thresholds : MultisigThresholds) (thresholdLevel : MultisigThresholdLevel)
    (envelopeXdr : String) (tx : Transaction)
    (ordinary : Ordinary sdk networkPassphrase (signers.map SignerWeight.forApi) envelopeXdr tx) :
    ∃ progress, countMultisigSignatures sdk envelopeXdr (signers.map SignerWeight.forApi) thresholds networkPassphrase
        thresholdLevel = .ok progress ∧
      let signed := signersOf sdk (sdk.hash networkPassphrase tx.body) tx.signatures (signers.map SignerWeight.forApi)
      progress.collectedWeight = weightOf signed ∧
      ((computeCollectedWeight sdk networkPassphrase (.transaction tx) signers).map (·.weight)).sum = weightOf signed ∧
      ((progress.signedBy ++ keys progress.remainingSigners).Perm (signers.map (·.key)) ∧
        progress.remainingSigners.Sublist (signers.map SignerWeight.forApi)) ∧
      progress.validSignatureCount + progress.invalidSignatureCount = tx.signatures.length ∧
      ∀ otherXdr signatures, sdk.fromXDR otherXdr networkPassphrase = .ok (.transaction { tx with signatures }) →
        (tx.signatures.Perm signatures → ∃ signedBy, signedBy.Perm progress.signedBy ∧
          countMultisigSignatures sdk otherXdr (signers.map SignerWeight.forApi) thresholds networkPassphrase
            thresholdLevel = .ok { progress with signedBy } ∧
          computeCollectedWeight sdk networkPassphrase (.transaction { tx with signatures }) signers =
            computeCollectedWeight sdk networkPassphrase (.transaction tx) signers) ∧
        (signatures ⊆ tx.signatures → ∃ fewer, countMultisigSignatures sdk otherXdr (signers.map SignerWeight.forApi)
            thresholds networkPassphrase thresholdLevel = .ok fewer ∧ fewer.collectedWeight ≤ progress.collectedWeight ∧
          ((computeCollectedWeight sdk networkPassphrase (.transaction { tx with signatures }) signers).map (·.weight)).sum ≤
            ((computeCollectedWeight sdk networkPassphrase (.transaction tx) signers).map (·.weight)).sum) := by
  have sameKeys : keys (signers.map SignerWeight.forApi) = signers.map (·.key) := by
    rw [keys,List.map_map]
    rfl
  refine ⟨_,ordinary.count thresholds thresholdLevel,ordinary.weight _,collected_weight networkPassphrase _ signers,
    ⟨?_,List.filter_sublist⟩,served_or_rejected tx.signatures,?_⟩
  · rw [← sameKeys]
    exact counted_partition (sameKeys ▸ distinct) tx.signatures
  · intro otherXdr signatures parsed
    constructor
    · intro perm
      have other := ordinary.of_subset parsed perm.symm.subset
      have single := single_of_oneSigner ordinary.oneSigner
      refine ⟨_,(served_perm single perm).symm,?_,computeCollectedWeight_perm perm networkPassphrase signers⟩
      rw [other.count thresholds thresholdLevel]
      exact congrArg _ (progressOf_reordered (served_perm single perm) (rejected_perm single perm) _)
    · intro subset
      have other := ordinary.of_subset parsed subset
      refine ⟨_,other.count thresholds thresholdLevel,?_,?_⟩
      · rw [ordinary.weight,other.weight]
        exact weight_mono subset
      · rw [collected_weight,collected_weight]
        exact weight_mono subset

/-! ### A payment that two signers sign -/

def testnet : String := "Test SDF Network ; September 2015"

/-- An SDK that knows these texts, and on the test network these hashes, keys and signatures. -/
def knownSdk (envelopes : List (String × Envelope)) (hashes : List (Body × List UInt8)) (bumps : List (FeeBump × List UInt8))
    (publicKeys : List (String × List UInt8)) (verified : List (List UInt8 × List UInt8 × List UInt8)) : Sdk where
  fromXDR envelopeXdr _ :=
    match envelopes.lookup envelopeXdr with
    | some envelope => .ok envelope
    | none => .error "XDR Read Error"
  hash networkPassphrase body := if networkPassphrase = testnet then (hashes.lookup body).getD [] else []
  feeBumpHash networkPassphrase bump := if networkPassphrase = testnet then (bumps.lookup bump).getD [] else []
  decodeEd25519PublicKey key := publicKeys.lookup key
  verify keypair hash signature := .ok (decide ((keypair,hash,signature) ∈ verified))

def signerA : String := "GCFIRY65OQE7DFP5KLNS2PF2LVZMUZYJX4OZIEQ36N2IQANUB5XVYOJR"
def signerB : String := "GCATS5YOVB6ROX2WUNKGNQ2MP3GMXDMKSG2O4N5CLX3A6W4PZGZZI55U"
def rawKeyA : List UInt8 :=
  [138,136,227,221,116,9,241,149,253,82,219,45,60,186,93,114,202,103,9,191,29,148,18,27,243,116,136,1,180,15,111,92]

def rawKeyB : List UInt8 :=
  [129,57,119,14,168,125,23,95,86,163,84,102,195,76,126,204,203,141,138,145,180,238,55,162,93,246,15,91,143,201,
    179,148]

def payment : Body where
  source := "GDFJHLAXAUMHA4OWPOB4P7YO72AQR2HMIUYFOXLXE2DZGM633K7HZDQP"
  fee := "100"
  sequence := "2"
  operations := [⟨none,.other .payment
    [0,0,0,0,110,122,28,221,41,176,183,143,209,58,244,197,89,143,239,244,239,42,151,22,110,60,166,242,228,251,252,
    205,128,80,91,241,0,0,0,0,0,0,0,0,5,245,225,0]⟩]
  rest := []

def paymentHash : List UInt8 :=
  [245,39,71,104,40,207,44,246,115,83,70,213,51,59,164,231,167,9,143,17,172,86,208,249,185,224,93,92,63,255,189,54]

def signatureA : DecoratedSignature where
  hint := [180,15,111,92]
  signature :=
    [154,135,98,10,195,115,12,15,226,31,13,124,141,68,74,28,70,109,35,4,95,109,12,216,60,245,113,160,151,107,100,102,
    190,224,89,121,121,17,52,76,246,78,243,95,215,156,191,232,46,110,34,151,47,21,189,108,201,227,26,110,69,164,174,
    4]

def signatureB : DecoratedSignature where
  hint := [143,201,179,148]
  signature :=
    [197,147,186,204,236,26,2,200,161,73,91,119,203,8,132,23,194,97,221,11,195,191,13,94,92,216,106,72,93,110,241,80,
    77,245,253,128,86,212,180,120,89,151,38,70,226,48,44,144,76,106,140,232,46,105,50,2,107,240,124,1,34,41,8,8]

/-- What the texts of the payment's envelopes begin with. -/
def paymentXdr : String :=
  "AAAAAgAAAADKk6wXBRhwcdZ7g8f/Dv6BCOjsRTBXXXcmh5Mz29q+fAAAAGQAAAAAAAAAAgAAAAAAAAAAAAAAAQAAAAAAAAABAAAA" ++
    "AG56HN0psLeP0Tr0xVmP7/TvKpcWbjym8uT7/M2AUFvxAAAAAAAAAAAF9eEAAAAAAAAAAAK"

def signedByAB : String :=
  paymentXdr ++ "0D29cAAAAQJqHYgrDcwwP4h8NfI1EShxGbSMEX20M2Dz1caCXa2RmvuBZeXkRNEz2TvNf15y/6C5uIpcvFb1syeMabkWkrgSPybO" ++
    "UAAAAQMWTuszsGgLIoUlbd8sIhBfCYd0Lw78NXlzYakhdbvFQTfX9gFbUtHhZlyZG4jAskExqjOguaTICa/B8ASIpCAg="

def signedByBA : String :=
  paymentXdr ++ "PybOUAAAAQMWTuszsGgLIoUlbd8sIhBfCYd0Lw78NXlzYakhdbvFQTfX9gFbUtHhZlyZG4jAskExqjOguaTICa/B8ASIpCAi0D29" ++
    "cAAAAQJqHYgrDcwwP4h8NfI1EShxGbSMEX20M2Dz1caCXa2RmvuBZeXkRNEz2TvNf15y/6C5uIpcvFb1syeMabkWkrgQ="

def paymentSdk : Sdk :=
  knownSdk [(signedByAB,.transaction ⟨payment,[signatureA,signatureB]⟩),(signedByBA,.transaction ⟨payment,[signatureB,signatureA]⟩)]
    [(payment,paymentHash)] [] [(signerA,rawKeyA),(signerB,rawKeyB)]
    [(rawKeyA,paymentHash,signatureA.signature),(rawKeyB,paymentHash,signatureB.signature)]

def twoSigners : List SignerWeight := [⟨signerA,1,"ed25519_public_key"⟩,⟨signerB,1,"ed25519_public_key"⟩]
def twoThresholds : MultisigThresholds := ⟨1,2,2⟩
theorem payment_keys : paymentSdk.fromPublicKey signerA = some rawKeyA ∧ paymentSdk.fromPublicKey signerB = some rawKeyB := by
  decide +kernel

theorem payment_verified {sig : DecoratedSignature} (listed : sig = signatureA ∨ sig = signatureB) :
    paymentSdk.verify rawKeyA paymentHash sig.signature = .ok (decide (sig = signatureA)) ∧
      paymentSdk.verify rawKeyB paymentHash sig.signature = .ok (decide (sig = signatureB)) := by
  rcases listed with rfl | rfl
  · decide +kernel
  · decide +kernel

theorem payment_ordinary {envelopeXdr : String} {signatures : List DecoratedSignature}
    (parsed : paymentSdk.fromXDR envelopeXdr testnet = .ok (.transaction ⟨payment,signatures⟩))
    (known : ∀ sig ∈ signatures, sig = signatureA ∨ sig = signatureB) :
    Ordinary paymentSdk testnet (twoSigners.map SignerWeight.forApi) envelopeXdr ⟨payment,signatures⟩ := by
  have hash : paymentSdk.hash testnet payment = paymentHash := by decide +kernel
  have apart : signatureA ≠ signatureB := by decide +kernel
  have isKey : ∀ key ∈ keys (twoSigners.map SignerWeight.forApi), key = signerA ∨ key = signerB := by
    intro key listed
    simpa [twoSigners,SignerWeight.forApi,keys] using listed
  refine ⟨parsed,fun key _ keypair _ sig _ => ⟨_,rfl⟩,?_⟩
  rw [hash]
  intro sig listed key keyListed other otherListed keypair otherPair keyed otherKeyed verified otherVerified
  obtain ⟨byA,byB⟩ := payment_verified (known sig listed)
  rcases isKey key keyListed with rfl | rfl <;> rcases isKey other otherListed with rfl | rfl
  · rfl
  · rw [payment_keys.1] at keyed
    rw [payment_keys.2] at otherKeyed
    obtain rfl := Option.some.inj keyed
    obtain rfl := Option.some.inj otherKeyed
    rw [byA] at verified
    rw [byB] at otherVerified
    have isA := of_decide_eq_true (Except.ok.inj verified)
    have isB := of_decide_eq_true (Except.ok.inj otherVerified)
    exact absurd (isA.symm.trans isB) apart
  · rw [payment_keys.2] at keyed
    rw [payment_keys.1] at otherKeyed
    obtain rfl := Option.some.inj keyed
    obtain rfl := Option.some.inj otherKeyed
    rw [byB] at verified
    rw [byA] at otherVerified
    have isB := of_decide_eq_true (Except.ok.inj verified)
    have isA := of_decide_eq_true (Except.ok.inj otherVerified)
    exact absurd (isA.symm.trans isB) apart
  · rfl

theorem payment_parsed :
    paymentSdk.fromXDR signedByAB testnet = .ok (.transaction ⟨payment,[signatureA,signatureB]⟩) ∧
      paymentSdk.fromXDR signedByBA testnet = .ok (.transaction ⟨payment,[signatureB,signatureA]⟩) := by
  have apart : (signedByBA == signedByAB) = false := by decide +kernel
  constructor
  · simp only [paymentSdk,knownSdk,List.lookup_cons_self]
  · simp only [paymentSdk,knownSdk,List.lookup_cons,apart,beq_self_eq_true]

theorem signing_weights_agree_payment :
    ∃ progress, countMultisigSignatures paymentSdk signedByAB (twoSigners.map SignerWeight.forApi) twoThresholds testnet
        .medium = .ok progress ∧ progress.collectedWeight = 2 := by
  have ordinary := payment_ordinary payment_parsed.1 (by simp)
  obtain ⟨progress,counted,weight,_⟩ := signing_weights_agree paymentSdk testnet twoSigners (by decide +kernel) twoThresholds
    .medium signedByAB _ ordinary
  exact ⟨progress,counted,weight.trans (by decide +kernel)⟩

/-- The order of the signatures is the order in which the API lists the keys. -/
theorem signing_order_listed :
    ¬ ∀ (sdk : Sdk) (networkPassphrase : String) (signers : List SignerWeight), (signers.map (·.key)).Nodup →
      ∀ (thresholds : MultisigThresholds) (thresholdLevel : MultisigThresholdLevel) (envelopeXdr otherXdr : String)
        (tx : Transaction) (signatures : List DecoratedSignature),
        Ordinary sdk networkPassphrase (signers.map SignerWeight.forApi) envelopeXdr tx →
        sdk.fromXDR otherXdr networkPassphrase = .ok (.transaction { tx with signatures }) → tx.signatures.Perm signatures →
        countMultisigSignatures sdk otherXdr (signers.map SignerWeight.forApi) thresholds networkPassphrase thresholdLevel =
          countMultisigSignatures sdk envelopeXdr (signers.map SignerWeight.forApi) thresholds networkPassphrase
            thresholdLevel := by
  intro always
  have same := always paymentSdk testnet twoSigners (by decide +kernel) twoThresholds .medium signedByAB signedByBA
    ⟨payment,[signatureA,signatureB]⟩ [signatureB,signatureA] (payment_ordinary payment_parsed.1 (by simp)) payment_parsed.2
    (List.Perm.swap ..)
  simp only [countMultisigSignatures,payment_parsed] at same
  exact absurd same (by decide +kernel)

end StellarAlerts.MultisigCounting
