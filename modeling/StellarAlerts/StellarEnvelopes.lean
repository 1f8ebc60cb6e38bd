import Mathlib.Data.List.Basic

/-!
Envelopes as the Stellar SDK reads them: a transaction with its signatures, or a fee bump around
one. A signature carries the last four bytes of the key that it is by as its hint.
-/
namespace StellarAlerts.StellarEnvelopes

/-- What a `setOptions` operation changes. -/
structure SetOptions where
  inflationDest : Option String
  clearFlags : Option Nat
  setFlags : Option Nat
  masterWeight : Option Nat
  lowThreshold : Option Nat
  medThreshold : Option Nat
  highThreshold : Option Nat
  homeDomain : Option String
  /-- the key of a signer with its new weight -/
  signer : Option (String × Nat)
deriving DecidableEq, Repr

/-- What the sponsorship is of that an operation revokes. -/
inductive Sponsored where
  | account
  | trustline
  | offer
  | data
  | claimableBalance
  | liquidityPool
  | signer
deriving DecidableEq, Repr

inductive OperationKind where
  | createAccount
  | payment
  | pathPaymentStrictReceive
  | pathPaymentStrictSend
  | createPassiveSellOffer
  | manageSellOffer
  | manageBuyOffer
  | changeTrust
  | allowTrust
  | accountMerge
  | inflation
  | manageData
  | bumpSequence
  | createClaimableBalance
  | claimClaimableBalance
  | beginSponsoringFutureReserves
  | endSponsoringFutureReserves
  | clawback
  | clawbackClaimableBalance
  | setTrustLineFlags
  | liquidityPoolDeposit
  | liquidityPoolWithdraw
  | invokeHostFunction
  | extendFootprintTtl
  | restoreFootprint
deriving DecidableEq, Repr

inductive OperationBody where
  | setOptions (options : SetOptions)
  | revokeSponsorship (of : Sponsored)
  | other (kind : OperationKind) (arguments : List UInt8)
deriving DecidableEq, Repr

structure Operation where
  /-- the account that the operation acts on; where there is none, that of the transaction -/
  source : Option String
  body : OperationBody
deriving DecidableEq, Repr

def Sponsored.type : Sponsored → String
  | .account => "revokeAccountSponsorship"
  | .trustline => "revokeTrustlineSponsorship"
  | .offer => "revokeOfferSponsorship"
  | .data => "revokeDataSponsorship"
  | .claimableBalance => "revokeClaimableBalanceSponsorship"
  | .liquidityPool => "revokeLiquidityPoolSponsorship"
  | .signer => "revokeSignerSponsorship"

def OperationKind.type : OperationKind → String
  | .createAccount => "createAccount"
  | .payment => "payment"
  | .pathPaymentStrictReceive => "pathPaymentStrictReceive"
  | .pathPaymentStrictSend => "pathPaymentStrictSend"
  | .createPassiveSellOffer => "createPassiveSellOffer"
  | .manageSellOffer => "manageSellOffer"
  | .manageBuyOffer => "manageBuyOffer"
  | .changeTrust => "changeTrust"
  | .allowTrust => "allowTrust"
  | .accountMerge => "accountMerge"
  | .inflation => "inflation"
  | .manageData => "manageData"
  | .bumpSequence => "bumpSequence"
  | .createClaimableBalance => "createClaimableBalance"
  | .claimClaimableBalance => "claimClaimableBalance"
  | .beginSponsoringFutureReserves => "beginSponsoringFutureReserves"
  | .endSponsoringFutureReserves => "endSponsoringFutureReserves"
  | .clawback => "clawback"
  | .clawbackClaimableBalance => "clawbackClaimableBalance"
  | .setTrustLineFlags => "setTrustLineFlags"
  | .liquidityPoolDeposit => "liquidityPoolDeposit"
  | .liquidityPoolWithdraw => "liquidityPoolWithdraw"
  | .invokeHostFunction => "invokeHostFunction"
  | .extendFootprintTtl => "extendFootprintTtl"
  | .restoreFootprint => "restoreFootprint"

/-- The `type` of the object that the SDK makes of an operation. -/
def OperationBody.type : OperationBody → String
  | .setOptions _ => "setOptions"
  | .revokeSponsorship of => of.type
  | .other kind _ => kind.type

structure DecoratedSignature where
  hint : List UInt8
  signature : List UInt8
deriving DecidableEq, Repr

/-- What the hash of a transaction covers. -/
structure Body where
  source : String
  fee : String
  sequence : String
  operations : List Operation
  /-- the memo and the preconditions -/
  rest : List UInt8
deriving DecidableEq, Repr

structure Transaction where
  body : Body
  signatures : List DecoratedSignature
deriving DecidableEq, Repr

/-- Its hash covers all but its own signatures. -/
structure FeeBump where
  feeSource : String
  fee : String
  innerTransaction : Transaction
deriving DecidableEq, Repr

inductive Envelope where
  | transaction (tx : Transaction)
  | feeBump (bump : FeeBump) (signatures : List DecoratedSignature)
deriving DecidableEq, Repr

/-- The transaction that carries the operations. -/
def Envelope.innerTransaction : Envelope → Transaction
  | .transaction tx => tx
  | .feeBump bump _ => bump.innerTransaction

def Envelope.signatures : Envelope → List DecoratedSignature
  | .transaction tx => tx.signatures
  | .feeBump _ signatures => signatures

/-- What the SDK does with texts, hashes and keys; a key pair is given by its public key. -/
structure Sdk where
  fromXDR : (envelopeXdr networkPassphrase : String) → Except String Envelope
  /-- `tx.hash()` of a transaction that was read for the network -/
  hash : (networkPassphrase : String) → Body → List UInt8
  feeBumpHash : (networkPassphrase : String) → FeeBump → List UInt8
  /-- none where it throws -/
  decodeEd25519PublicKey : String → Option (List UInt8)
  /-- `keypair.verify(hash,signature)` -/
  verify : (keypair hash signature : List UInt8) → Except String Bool

def Sdk.envelopeHash (sdk : Sdk) (networkPassphrase : String) : Envelope → List UInt8
  | .transaction tx => sdk.hash networkPassphrase tx.body
  | .feeBump bump _ => sdk.feeBumpHash networkPassphrase bump

/-- `Keypair.fromPublicKey`: none where it throws. -/
def Sdk.fromPublicKey (sdk : Sdk) (key : String) : Option (List UInt8) :=
  match sdk.decodeEd25519PublicKey key with
  | some publicKey => if publicKey.length = 32 then some publicKey else none
  | none => none

/-- `subarray(-4)` -/
def lastFour (bytes : List UInt8) : List UInt8 := bytes.drop (bytes.length - 4)

/-- `keypair.signatureHint()` -/
def signatureHint (keypair : List UInt8) : List UInt8 := lastFour keypair

/-- It verifies; false where `verify` throws. -/
def Sdk.verifies (sdk : Sdk) (keypair hash signature : List UInt8) : Bool :=
  match sdk.verify keypair hash signature with
  | .ok verified => verified
  | .error _ => false

def Sdk.signs (sdk : Sdk) (hash : List UInt8) (key : String) (sig : DecoratedSignature) : Bool :=
  match sdk.fromPublicKey key with
  | none => false
  | some keypair => signatureHint keypair = sig.hint && sdk.verifies keypair hash sig.signature

/-- `verify` answers for each of the keys and signatures, as it is documented to. -/
def Sdk.Answers (sdk : Sdk) (hash : List UInt8) (keys : List String) (signatures : List DecoratedSignature) : Prop :=
  ∀ key ∈ keys, ∀ keypair, sdk.fromPublicKey key = some keypair → ∀ sig ∈ signatures,
    ∃ verified, sdk.verify keypair hash sig.signature = .ok verified

def Sdk.OneSigner (sdk : Sdk) (hash : List UInt8) (keys : List String) (signatures : List DecoratedSignature) : Prop :=
  ∀ sig ∈ signatures, ∀ key ∈ keys, ∀ other ∈ keys, ∀ keypair otherPair, sdk.fromPublicKey key = some keypair →
    sdk.fromPublicKey other = some otherPair → sdk.verify keypair hash sig.signature = .ok true →
    sdk.verify otherPair hash sig.signature = .ok true → key = other

theorem Sdk.verifies_iff {sdk : Sdk} {keypair hash signature : List UInt8} :
    sdk.verifies keypair hash signature = true ↔ sdk.verify keypair hash signature = .ok true := by
  cases answer : sdk.verify keypair hash signature with
  | error message => simp [verifies,answer]
  | ok verified => simp [verifies,answer]

theorem Sdk.signs_iff {sdk : Sdk} {hash : List UInt8} {key : String} {sig : DecoratedSignature} :
    sdk.signs hash key sig = true ↔ ∃ keypair, sdk.fromPublicKey key = some keypair ∧
      signatureHint keypair = sig.hint ∧ sdk.verify keypair hash sig.signature = .ok true := by
  cases keyed : sdk.fromPublicKey key with
  | none => simp [signs,keyed]
  | some keypair => simp [signs,keyed,verifies_iff]

end StellarAlerts.StellarEnvelopes
