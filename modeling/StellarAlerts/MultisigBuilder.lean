import StellarAlerts.HexText
import StellarAlerts.MultisigCounting

/-!
Multisig proposals on the command line: the threshold that the operations of a
transaction imply, and whether the signatures of its envelope reach it.
-/
namespace StellarAlerts.MultisigBuilder
open HexText (toHex)
open MultisigCounting StellarEnvelopes

/-! ### Accounts -/

structure HorizonSigner where
  key : Option String
  publicKey : Option String
  account_id : Option String
  weight : Option Nat
  type : Option String
deriving DecidableEq, Repr

structure HorizonThresholds where
  low_threshold : Option Nat
  low : Option Nat
  med_threshold : Option Nat
  med : Option Nat
  high_threshold : Option Nat
  high : Option Nat
deriving DecidableEq, Repr

structure HorizonAccount where
  account_id : Option String
  accountId : Option String
  signers : Option (List HorizonSigner)
  thresholds : Option HorizonThresholds
  master_key_weight : Option Nat
  masterKeyWeight : Option Nat
deriving DecidableEq, Repr

structure MultisigThresholds where
  lowThreshold : Nat
  medThreshold : Nat
  highThreshold : Nat
deriving DecidableEq, Repr

/-- One round of the loop of `extractSigners`; an empty key is none. -/
def extractSigner (s : HorizonSigner) : Option SignerWeight :=
  match s.key <|> s.publicKey <|> s.account_id with
  | none => none
  | some key => if key = "" then none else some ⟨key,s.weight.getD 0,s.type.getD "ed25519_public_key"⟩

def extractSigners (account : HorizonAccount) : List SignerWeight :=
  let signers := (account.signers.getD []).filterMap extractSigner
  match account.account_id <|> account.accountId with
  | none => signers
  | some masterKey =>
    if masterKey ≠ "" ∧ ¬ signers.any (fun s => s.key = masterKey) then
      signers ++ [⟨masterKey,(account.master_key_weight <|> account.masterKeyWeight).getD 0,"ed25519_public_key"⟩]
    else signers

def extractThresholds (account : HorizonAccount) : MultisigThresholds :=
  match account.thresholds with
  | none => ⟨0,0,0⟩
  | some t =>
    ⟨(t.low_threshold <|> t.low).getD 0,(t.med_threshold <|> t.med).getD 0,(t.high_threshold <|> t.high).getD 0⟩

/-! ### Thresholds -/

inductive ThresholdLevel where
  | low
  | med
  | high
deriving DecidableEq, Repr

def highThresholdOperations : List String := ["setOptions","clawback","setTrustLineFlags","revokeSponsorship"]
def determineThresholdLevel (tx : Body) : ThresholdLevel :=
  if tx.operations.any fun op => op.body.type ∈ highThresholdOperations then .high else .med

def thresholdForLevel (thresholds : MultisigThresholds) : ThresholdLevel → Nat
  | .high => thresholds.highThreshold
  | .low => thresholds.lowThreshold
  | .med => thresholds.medThreshold

/-! ### Proposals -/

structure ParsedMultisigProposal where
  envelopeXdr : String
  txHash : String
  sourceAccount : String
  fee : String
  sequence : String
  operationCount : Nat
  signers : List SignerWeight
  thresholds : MultisigThresholds
  requiredThreshold : Nat
  thresholdLevel : ThresholdLevel
  collectedSigners : List CollectedSigner
  collectedWeight : Nat
  remainingWeight : Nat
  thresholdMet : Bool
deriving DecidableEq, Repr

def proposalOf (sdk : Sdk) (envelopeXdr : String) (account : HorizonAccount) (passphrase : String) (envelope : Envelope) :
    ParsedMultisigProposal :=
  let tx := envelope.innerTransaction.body
  let signers := extractSigners account
  let thresholds := extractThresholds account
  let thresholdLevel := determineThresholdLevel tx
  let requiredThreshold := thresholdForLevel thresholds thresholdLevel
  -- the signatures of the envelope, also where it is a fee bump
  let collected := computeCollectedWeight sdk passphrase envelope signers
  let collectedWeight := (collected.map (·.weight)).sum
  { envelopeXdr
    txHash := toHex (sdk.envelopeHash passphrase envelope)
    sourceAccount := tx.source
    fee := tx.fee
    sequence := tx.sequence
    operationCount := tx.operations.length
    signers
    thresholds
    requiredThreshold
    thresholdLevel
    collectedSigners := collected
    collectedWeight
    remainingWeight := requiredThreshold - collectedWeight
    thresholdMet := 0 < requiredThreshold ∧ requiredThreshold ≤ collectedWeight }

def parseMultisigProposal (sdk : Sdk) (envelopeXdr : String) (account : HorizonAccount) (passphrase : String) :
    Except String ParsedMultisigProposal :=
  match sdk.fromXDR envelopeXdr passphrase with
  | .error message => .error message
  | .ok envelope => .ok (proposalOf sdk envelopeXdr account passphrase envelope)

/-! ### The network -/

def protocolLevel : OperationBody → ThresholdLevel
  | .setOptions options =>
    if options.signer.isSome ∨ options.masterWeight.isSome ∨ options.lowThreshold.isSome ∨ options.medThreshold.isSome ∨
      options.highThreshold.isSome then .high
    else .med
  | .revokeSponsorship _ => .med
  | .other .accountMerge _ => .high
  | .other .allowTrust _ => .low
  | .other .setTrustLineFlags _ => .low
  | .other .bumpSequence _ => .low
  | .other .claimClaimableBalance _ => .low
  | .other .inflation _ => .low
  | .other .extendFootprintTtl _ => .low
  | .other .restoreFootprint _ => .low
  | .other _ _ => .med

def protocolThreshold (thresholds : MultisigThresholds) (op : Operation) : Nat :=
  thresholdForLevel thresholds (protocolLevel op.body)

/-- All operations act on the source account of the transaction. -/
def OnSource (tx : Body) : Prop := ∀ op ∈ tx.operations, op.source = none ∨ op.source = some tx.source

def verifiedWeight (sdk : Sdk) (passphrase : String) (tx : Transaction) (account : HorizonAccount) : Nat :=
  weightOf (signersOf sdk (sdk.hash passphrase tx.body) tx.signatures ((extractSigners account).map SignerWeight.forApi))

def MetOnNetwork (sdk : Sdk) (envelopeXdr : String) (account : HorizonAccount) (passphrase : String) : Prop :=
  ∀ proposal envelope, parseMultisigProposal sdk envelopeXdr account passphrase = .ok proposal →
    sdk.fromXDR envelopeXdr passphrase = .ok envelope → proposal.thresholdMet = true →
    ∀ op ∈ envelope.innerTransaction.body.operations,
      protocolThreshold (extractThresholds account) op ≤ verifiedWeight sdk passphrase envelope.innerTransaction account

def Signed (sdk : Sdk) (hash : List UInt8) (signatures : List DecoratedSignature) (key : String) : Prop :=
  key ≠ "" ∧ signatures.any (sdk.signs hash key) = true

section Envelope
variable {sdk : Sdk} {envelopeXdr passphrase : String} {envelope : Envelope}

theorem parse_eq (parsed : sdk.fromXDR envelopeXdr passphrase = .ok envelope) (account : HorizonAccount) :
    parseMultisigProposal sdk envelopeXdr account passphrase = .ok (proposalOf sdk envelopeXdr account passphrase envelope) := by
  rw [parseMultisigProposal,parsed]

theorem proposal_weight (account : HorizonAccount) :
    (proposalOf sdk envelopeXdr account passphrase envelope).collectedWeight =
      weightOf (signersOf sdk (sdk.envelopeHash passphrase envelope) envelope.signatures
        ((extractSigners account).map SignerWeight.forApi)) :=
  collected_weight passphrase envelope (extractSigners account)

theorem met_iff (account : HorizonAccount) :
    (proposalOf sdk envelopeXdr account passphrase envelope).thresholdMet = true ↔
      0 < (proposalOf sdk envelopeXdr account passphrase envelope).requiredThreshold ∧
        (proposalOf sdk envelopeXdr account passphrase envelope).requiredThreshold ≤
          (proposalOf sdk envelopeXdr account passphrase envelope).collectedWeight :=
  decide_eq_true_iff

theorem metOnNetwork_iff (parsed : sdk.fromXDR envelopeXdr passphrase = .ok envelope) (account : HorizonAccount) :
    MetOnNetwork sdk envelopeXdr account passphrase ↔
      ((proposalOf sdk envelopeXdr account passphrase envelope).thresholdMet = true →
        ∀ op ∈ envelope.innerTransaction.body.operations,
          protocolThreshold (extractThresholds account) op ≤ verifiedWeight sdk passphrase envelope.innerTransaction account) := by
  constructor
  · exact fun met => met _ envelope (parse_eq parsed account) parsed
  · intro met proposal other isProposal isEnvelope
    rw [parse_eq parsed account] at isProposal
    rw [parsed] at isEnvelope
    obtain rfl := Except.ok.inj isProposal
    obtain rfl := Except.ok.inj isEnvelope
    exact met

end Envelope

/-! ### Signers -/

theorem extractSigners_key {account : HorizonAccount} {signer : SignerWeight} (listed : signer ∈ extractSigners account) :
    signer.key ≠ "" := by
  have own : ∀ signers : List HorizonSigner, signer ∈ signers.filterMap extractSigner → signer.key ≠ "" := by
    intro signers member
    obtain ⟨s,_,extracted⟩ := List.mem_filterMap.mp member
    unfold extractSigner at extracted
    split at extracted
    · cases extracted
    · split at extracted
      · cases extracted
      · rename_i nonempty
        obtain rfl := Option.some.inj extracted
        exact nonempty
  unfold extractSigners at listed
  dsimp only at listed
  split at listed
  · exact own _ listed
  · split at listed
    · rename_i masterKey _ missing
      rcases List.mem_append.mp listed with member | isMaster
      · exact own _ member
      · obtain rfl := List.mem_singleton.mp isMaster
        exact missing.1
    · exact own _ listed

variable {sdk : Sdk}

theorem signed_weight_le {outer inner : List UInt8} {first second : List DecoratedSignature} (account : HorizonAccount)
    (also : ∀ key, Signed sdk outer first key → Signed sdk inner second key) :
    weightOf (signersOf sdk outer first ((extractSigners account).map SignerWeight.forApi)) ≤
      weightOf (signersOf sdk inner second ((extractSigners account).map SignerWeight.forApi)) := by
  have sublist : (signersOf sdk outer first ((extractSigners account).map SignerWeight.forApi)).Sublist
      (signersOf sdk inner second ((extractSigners account).map SignerWeight.forApi)) := by
    have both : signersOf sdk outer first ((extractSigners account).map SignerWeight.forApi) =
        (signersOf sdk inner second ((extractSigners account).map SignerWeight.forApi)).filter fun s =>
          first.any (sdk.signs outer s.key) := by
      rw [signersOf,signersOf,List.filter_filter]
      refine List.filter_congr fun signer listed => ?_
      obtain ⟨entry,member,rfl⟩ := List.mem_map.mp listed
      cases signed : first.any (sdk.signs outer entry.forApi.key) with
      | false => rfl
      | true =>
        have other : second.any (sdk.signs inner entry.forApi.key) = true :=
          (also entry.key ⟨extractSigners_key member,signed⟩).2
        rw [other]
        rfl
    rw [both]
    exact List.filter_sublist
  exact (sublist.map _).sum_le_sum fun _ _ => Nat.zero_le _

theorem unsigned_weight {hash : List UInt8} {signatures : List DecoratedSignature} (account : HorizonAccount)
    (unsigned : ∀ key, ¬ Signed sdk hash signatures key) :
    weightOf (signersOf sdk hash signatures ((extractSigners account).map SignerWeight.forApi)) = 0 := by
  have nobody : signersOf sdk hash signatures ((extractSigners account).map SignerWeight.forApi) = [] := by
    refine List.filter_eq_nil_iff.mpr fun signer listed signed => ?_
    obtain ⟨entry,member,rfl⟩ := List.mem_map.mp listed
    exact unsigned entry.key ⟨extractSigners_key member,signed⟩
  rw [nobody]
  rfl

def soleSigner (source key : String) (weight : Nat) (thresholds : MultisigThresholds) : HorizonAccount where
  account_id := some source
  accountId := none
  signers := some [⟨some key,none,none,some weight,some "ed25519_public_key"⟩]
  thresholds := some ⟨some thresholds.lowThreshold,none,some thresholds.medThreshold,none,some thresholds.highThreshold,none⟩
  master_key_weight := some 0
  masterKeyWeight := none

theorem soleSigner_weight {hash : List UInt8} {signatures : List DecoratedSignature} {key : String} (nonempty : key ≠ "")
    (source : String) (weight : Nat) (thresholds : MultisigThresholds) :
    weightOf (signersOf sdk hash signatures ((extractSigners (soleSigner source key weight thresholds)).map SignerWeight.forApi)) =
      if signatures.any (sdk.signs hash key) then weight else 0 := by
  have own : extractSigner ⟨some key,none,none,some weight,some "ed25519_public_key"⟩ =
      some ⟨key,weight,"ed25519_public_key"⟩ := by
    rw [extractSigner]
    exact if_neg nonempty
  -- the source account has no weight of its own
  have signers : ∃ rest : List SignerWeight, extractSigners (soleSigner source key weight thresholds) =
      ⟨key,weight,"ed25519_public_key"⟩ :: rest ∧ ∀ s ∈ rest, s.weight = 0 := by
    simp only [extractSigners,soleSigner,Option.getD_some,List.filterMap_cons,own,List.filterMap_nil,
      Option.orElse_eq_orElse,Option.orElse_some]
    split
    · exact ⟨_,rfl,fun s listed => by rw [List.mem_singleton.mp listed]⟩
    · exact ⟨[],rfl,fun s listed => nomatch listed⟩
  obtain ⟨rest,extracted,weightless⟩ := signers
  have restWeight : weightOf (signersOf sdk hash signatures (rest.map SignerWeight.forApi)) = 0 := by
    refine List.sum_eq_zero fun w listed => ?_
    obtain ⟨signer,member,rfl⟩ := List.mem_map.mp listed
    obtain ⟨entry,isRest,rfl⟩ := List.mem_map.mp (List.mem_filter.mp member).1
    exact weightless entry isRest
  rw [extracted,List.map_cons,weight_cons,restWeight,Nat.add_zero]
  rfl

/-- No signature is counted that the network does not count, and no operation needs more than the
    threshold of the proposal; or the proposal is never met or nothing is needed. -/
def Covered (sdk : Sdk) (passphrase : String) (envelope : Envelope) (thresholds : MultisigThresholds) : Prop :=
  let tx := envelope.innerTransaction
  let required := thresholdForLevel thresholds (determineThresholdLevel tx.body)
  required = 0 ∨ (∀ op ∈ tx.body.operations, protocolThreshold thresholds op = 0) ∨
    (∀ key, ¬ Signed sdk (sdk.envelopeHash passphrase envelope) envelope.signatures key) ∨
    (∀ key, Signed sdk (sdk.envelopeHash passphrase envelope) envelope.signatures key →
      Signed sdk (sdk.hash passphrase tx.body) tx.signatures key) ∧
    ∀ op ∈ tx.body.operations, protocolThreshold thresholds op ≤ required

/-- Whoever the signers of the source account are, a proposal that is reported as met is met on the
    network, just if its envelope is covered. -/
theorem threshold_met_iff (sdk : Sdk) (passphrase envelopeXdr : String) (envelope : Envelope)
    (parsed : sdk.fromXDR envelopeXdr passphrase = .ok envelope) (thresholds : MultisigThresholds) :
    (∀ account, account.account_id = some envelope.innerTransaction.body.source → extractThresholds account = thresholds →
      MetOnNetwork sdk envelopeXdr account passphrase) ↔ Covered sdk passphrase envelope thresholds := by
  constructor
  · intro sound
    by_cases free : thresholdForLevel thresholds (determineThresholdLevel envelope.innerTransaction.body) = 0
    · exact .inl free
    by_cases idle : ∀ op ∈ envelope.innerTransaction.body.operations, protocolThreshold thresholds op = 0
    · exact .inr (.inl idle)
    by_cases unsigned : ∀ key, ¬ Signed sdk (sdk.envelopeHash passphrase envelope) envelope.signatures key
    · exact .inr (.inr (.inl unsigned))
    -- an account of one signer meets the threshold as soon as that signer has signed
    have asked : ∀ key, Signed sdk (sdk.envelopeHash passphrase envelope) envelope.signatures key →
        ∀ op ∈ envelope.innerTransaction.body.operations, protocolThreshold thresholds op ≤
          if envelope.innerTransaction.signatures.any
            (sdk.signs (sdk.hash passphrase envelope.innerTransaction.body) key) then
              thresholdForLevel thresholds (determineThresholdLevel envelope.innerTransaction.body) else 0 := by
      intro key signed op listed
      have met := (metOnNetwork_iff parsed _).mp (sound (soleSigner envelope.innerTransaction.body.source key
        (thresholdForLevel thresholds (determineThresholdLevel envelope.innerTransaction.body)) thresholds) rfl rfl)
        ((met_iff _).mpr ⟨Nat.pos_of_ne_zero free,?_⟩) op listed
      · rw [verifiedWeight,soleSigner_weight signed.1] at met
        exact met
      · rw [proposal_weight,soleSigner_weight signed.1,if_pos signed.2]
        exact Nat.le_refl _
    push Not at idle unsigned
    obtain ⟨op,listed,needed⟩ := idle
    have also : ∀ key, Signed sdk (sdk.envelopeHash passphrase envelope) envelope.signatures key →
        Signed sdk (sdk.hash passphrase envelope.innerTransaction.body) envelope.innerTransaction.signatures key := by
      intro key signed
      refine ⟨signed.1,?_⟩
      by_contra missing
      have none := asked key signed op listed
      rw [if_neg missing] at none
      omega
    obtain ⟨key,signed⟩ := unsigned
    refine .inr (.inr (.inr ⟨also,fun op listed => ?_⟩))
    have covered := asked key signed op listed
    rwa [if_pos (also key signed).2] at covered
  · rintro covered account _ rfl
    refine (metOnNetwork_iff parsed account).mpr fun isMet op listed => ?_
    obtain ⟨positive,reached⟩ := (met_iff account).mp isMet
    rw [proposal_weight] at reached
    rcases covered with free | idle | unsigned | ⟨also,needs⟩
    · exact absurd free (Nat.ne_of_gt positive)
    · rw [idle op listed]
      exact Nat.zero_le _
    · rw [unsigned_weight account unsigned] at reached
      exact absurd positive (Nat.not_lt.mpr reached)
    · exact (needs op listed).trans (reached.trans (signed_weight_le account also))

/-! ### What the code's level covers -/

variable {thresholds : MultisigThresholds}

theorem needs_of_ordered (lowMed : thresholds.lowThreshold ≤ thresholds.medThreshold)
    (medHigh : thresholds.medThreshold ≤ thresholds.highThreshold) {tx : Body}
    (noMerge : ∀ op ∈ tx.operations, ∀ arguments, op.body ≠ .other .accountMerge arguments) :
    ∀ op ∈ tx.operations, protocolThreshold thresholds op ≤ thresholdForLevel thresholds (determineThresholdLevel tx) := by
  intro op listed
  have atLeastMed : thresholds.medThreshold ≤ thresholdForLevel thresholds (determineThresholdLevel tx) := by
    rw [determineThresholdLevel]
    split
    · exact medHigh
    · exact Nat.le_refl _
  unfold protocolThreshold
  rcases op with ⟨source,body⟩
  cases body with
  | setOptions options =>
    have high : determineThresholdLevel tx = .high :=
      if_pos (List.any_eq_true.mpr ⟨_,listed,show decide ("setOptions" ∈ highThresholdOperations) = true by decide⟩)
    rw [high]
    show thresholdForLevel thresholds (if _ then _ else _) ≤ thresholds.highThreshold
    split
    · exact Nat.le_refl _
    · exact medHigh
  | revokeSponsorship of => exact atLeastMed
  | other kind arguments =>
    have low : thresholds.lowThreshold ≤ thresholdForLevel thresholds (determineThresholdLevel tx) := lowMed.trans atLeastMed
    cases kind with
    | accountMerge => exact absurd rfl (noMerge _ listed arguments)
    | allowTrust => exact low
    | setTrustLineFlags => exact low
    | bumpSequence => exact low
    | claimClaimableBalance => exact low
    | inflation => exact low
    | extendFootprintTtl => exact low
    | restoreFootprint => exact low
    | _ => exact atLeastMed

theorem covered_transaction {passphrase : String} {tx : Transaction}
    (needs : ∀ op ∈ tx.body.operations,
      protocolThreshold thresholds op ≤ thresholdForLevel thresholds (determineThresholdLevel tx.body)) :
    Covered sdk passphrase (.transaction tx) thresholds :=
  .inr (.inr (.inr ⟨fun _ signed => signed,needs⟩))

/-! ### A payment that two of three signers sign -/

def treasuryKey : String := "GDFJHLAXAUMHA4OWPOB4P7YO72AQR2HMIUYFOXLXE2DZGM633K7HZDQP"

/-- An account with a master key and two more signers. -/
def treasury : HorizonAccount where
  account_id := some treasuryKey
  accountId := none
  signers := some [⟨some signerA,none,none,some 1,some "ed25519_public_key"⟩,
    ⟨some signerB,none,none,some 1,some "ed25519_public_key"⟩,⟨some treasuryKey,none,none,some 1,some "ed25519_public_key"⟩]
  thresholds := some ⟨some 1,none,some 2,none,some 3,none⟩
  master_key_weight := none
  masterKeyWeight := none

theorem threshold_met_payment : MetOnNetwork paymentSdk signedByAB treasury testnet :=
  (threshold_met_iff paymentSdk testnet signedByAB _ payment_parsed.1 ⟨1,2,3⟩).mpr
    (covered_transaction (needs_of_ordered (by decide) (by decide) (by simp [payment]))) treasury rfl rfl

/-! ### A merge that two of three signers sign -/

def merge : Body where
  source := treasuryKey
  fee := "100"
  sequence := "2"
  operations := [⟨none,.other .accountMerge
    [0,0,0,0,110,122,28,221,41,176,183,143,209,58,244,197,89,143,239,244,239,42,151,22,110,60,166,242,228,251,252,
    205,128,80,91,241]⟩]
  rest := []

def mergeHash : List UInt8 :=
  [249,152,55,10,69,223,43,155,163,192,188,127,141,104,100,42,122,147,118,67,88,255,9,160,45,159,9,244,100,103,2,
    167]

def mergeSignatureA : DecoratedSignature where
  hint := [180,15,111,92]
  signature :=
    [68,58,187,18,120,45,83,210,189,34,119,184,213,75,149,65,1,149,122,224,143,114,188,10,250,225,27,252,74,0,12,140,
    135,248,148,157,134,33,159,143,29,175,68,165,90,245,204,63,17,57,143,127,234,89,20,178,238,142,156,189,76,157,
    158,6]

def mergeSignatureB : DecoratedSignature where
  hint := [143,201,179,148]
  signature :=
    [115,34,210,45,172,249,9,163,172,196,234,183,250,87,110,254,3,126,198,31,130,228,188,159,157,239,133,124,20,123,
    222,233,61,30,139,171,161,173,188,95,83,0,69,208,118,8,214,133,244,240,135,30,16,177,96,208,3,38,237,166,107,
    193,224,15]

def mergeXdr : String :=
  "AAAAAgAAAADKk6wXBRhwcdZ7g8f/Dv6BCOjsRTBXXXcmh5Mz29q+fAAAAGQAAAAAAAAAAgAAAAAAAAAAAAAAAQAAAAAAAAAIAAAA" ++
    "AG56HN0psLeP0Tr0xVmP7/TvKpcWbjym8uT7/M2AUFvxAAAAAAAAAAK0D29cAAAAQEQ6uxJ4LVPSvSJ3uNVLlUEBlXrgj3K8Cvrh" ++
    "G/xKAAyMh/iUnYYhn48dr0SlWvXMPxE5j3/qWRSy7o6cvUydngaPybOUAAAAQHMi0i2s+QmjrMTqt/pXbv4DfsYfguS8n53vhXwU" ++
    "e97pPR6Lq6GtvF9TAEXQdgjWhfTwhx4QsWDQAybtpmvB4A8="

def mergeSdk : Sdk :=
  knownSdk [(mergeXdr,.transaction ⟨merge,[mergeSignatureA,mergeSignatureB]⟩)] [(merge,mergeHash)] []
    [(signerA,rawKeyA),(signerB,rawKeyB)]
    [(rawKeyA,mergeHash,mergeSignatureA.signature),(rawKeyB,mergeHash,mergeSignatureB.signature)]

/-- It is reported as met with the medium threshold, and the network asks for the high one. -/
theorem merge_rejected :
    ¬ ∀ (sdk : Sdk) (envelopeXdr : String) (account : HorizonAccount) (passphrase : String) (envelope : Envelope),
      sdk.fromXDR envelopeXdr passphrase = .ok envelope →
      account.account_id = some envelope.innerTransaction.body.source → OnSource envelope.innerTransaction.body →
      MetOnNetwork sdk envelopeXdr account passphrase := by
  intro always
  have parsed : mergeSdk.fromXDR mergeXdr testnet = .ok (.transaction ⟨merge,[mergeSignatureA,mergeSignatureB]⟩) := by
    simp only [mergeSdk,knownSdk,List.lookup_cons_self]
  have onSource : OnSource merge := fun op listed => .inl (by rw [List.mem_singleton.mp listed])
  have met := (metOnNetwork_iff parsed treasury).mp (always mergeSdk mergeXdr treasury testnet _ parsed rfl onSource)
    (by decide +kernel) _ (List.mem_singleton_self _)
  exact absurd met (by decide +kernel)

end StellarAlerts.MultisigBuilder
