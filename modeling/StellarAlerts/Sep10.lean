import StellarAlerts.DidAuth
import StellarAlerts.FirstOfKey

/-!
Sign-in with the key of a Stellar account, and the table of wallets that it reads. The
session is for the user of the key's wallet, which any user can add, and for a new user
where the key has none.
-/
namespace StellarAlerts.Sep10
open Interleaving hiding step
open Registries UniqueTables Utf16Text
open DidAuth (isValidEd25519PublicKey)
open IntegerText (trim)

inductive Operation where
  | manageData (source : Option String) (name : String) (value : List UInt8)
  | other (type : String) (source : Option String) (body : List UInt8)
deriving DecidableEq, Repr

/-- What the hash of a transaction covers. -/
structure Transaction where
  source : String
  sequence : String
  fee : String
  /-- the times of its bounds in seconds -/
  timeBounds : Option (Nat × Nat)
  memo : List UInt8
  operations : List Operation
deriving DecidableEq, Repr

inductive Envelope where
  | transaction (tx : Transaction) (signatures : List String)
  | feeBump
deriving DecidableEq, Repr

/-- What the Stellar SDK and the language do, and how the service is set up. -/
structure Platform where
  serverPublicKey : String
  homeDomain : String
  networkPassphrase : String
  fromXDR : String → Except String Envelope
  toXDR : Transaction → List String → String
  Hash : Type
  hash : Transaction → Hash
  hash_injective : Function.Injective hash
  /-- `serverKeypair.sign(hash)` -/
  serverSign : Hash → String
  /-- `Keypair.fromPublicKey(key).verify(hash,signature)`; false where it throws -/
  verify : (key : String) → Hash → (signature : String) → Bool
  /-- `Number` on unsigned 64-bit integers -/
  toNumber : Nat → Nat
  toNumber_safe : ∀ n ≤ 2 ^ 53, toNumber n = n
  groth16Verify : (proof : String) → (publicSignals : List String) → Bool
  /-- `toLowerCase` on texts with characters beyond ASCII -/
  otherLowerCase : String → String
  /-- the default of the identifiers of users -/
  cuid : Nat → String
  cuid_injective : Function.Injective cuid

def Platform.toLowerCase (p : Platform) (text : String) : String :=
  if text.toList.all fun c => c.toNat < 128 then HexText.toLowerCase text else p.otherLowerCase text

structure SEP10ChallengeResult where
  transaction : String
  networkPassphrase : String
deriving DecidableEq, Repr

def challengeTransaction (p : Platform) (clientPublicKey : String) (timeoutSeconds dateNow : Nat) (nonce : List UInt8) :
    Transaction where
  source := p.serverPublicKey
  sequence := "0"
  fee := "100"
  timeBounds := some (dateNow / 1000 - 30,dateNow / 1000 + timeoutSeconds)
  memo := []
  operations := [.manageData (some clientPublicKey) (p.homeDomain ++ " auth") nonce]

def generateChallenge (p : Platform) (clientPublicKey : String) (timeoutSeconds dateNow : Nat) (nonce : List UInt8) :
    Except String SEP10ChallengeResult :=
  if clientPublicKey = "" ∨ ¬ isValidEd25519PublicKey clientPublicKey then
    .error ("Invalid client Stellar public key: " ++ clientPublicKey)
  else
    let tx := challengeTransaction p clientPublicKey timeoutSeconds dateNow nonce
    .ok ⟨p.toXDR tx [p.serverSign (p.hash tx)],p.networkPassphrase⟩

def checkOperations (p : Platform) (tx : Transaction) (signatures : List String) : Except String String :=
  match tx.operations with
  | [] => .error "Challenge transaction has no operations"
  | .other type _ _ :: _ => .error ("Invalid first operation type: expected \"manageData\", got \"" ++ type ++ "\"")
  | .manageData source name _ :: _ =>
    let clientPublicKey := source.getD ""
    if clientPublicKey = "" ∨ ¬ isValidEd25519PublicKey clientPublicKey then
      .error "Invalid or missing client public key in challenge manageData operation source"
    else if name ≠ p.homeDomain ++ " auth" then
      .error ("Invalid manageData operation key: expected \"" ++ p.homeDomain ++ " auth\", got \"" ++ name ++ "\"")
    else if !signatures.any (p.verify p.serverPublicKey (p.hash tx)) then
      .error "Challenge transaction was not signed by the server key"
    else if !signatures.any (p.verify clientPublicKey (p.hash tx)) then
      .error ("Challenge transaction is missing a valid signature from client \"" ++ clientPublicKey ++ "\"")
    else .ok clientPublicKey

def checkTransaction (p : Platform) (tx : Transaction) (signatures : List String) (dateNow : Nat) : Except String String :=
  if tx.sequence ≠ "0" then .error ("Invalid sequence number: expected \"0\", got \"" ++ tx.sequence ++ "\"")
  else if tx.source ≠ p.serverPublicKey then
    .error ("Invalid transaction source account: expected server key \"" ++ p.serverPublicKey ++ "\", got \"" ++ tx.source ++ "\"")
  else
    let now := dateNow / 1000
    match tx.timeBounds with
    | none => .error "Transaction is missing time bounds"
    | some (lower,upper) =>
      let minTime := p.toNumber lower
      let maxTime := p.toNumber upper
      if now < minTime then
        .error ("Challenge transaction is not yet active (current: " ++ toString now ++ ", min: " ++ toString minTime ++ ")")
      else if maxTime < now then
        .error ("Challenge transaction has expired (current: " ++ toString now ++ ", max: " ++ toString maxTime ++ ")")
      else checkOperations p tx signatures

def verifyChallenge (p : Platform) (transactionXdr : String) (dateNow : Nat) : Except String String :=
  if transactionXdr = "" then .error "Missing or invalid challenge transaction envelope XDR"
  else
    match p.fromXDR transactionXdr with
    | .error message => .error ("Failed to decode transaction XDR: " ++ message)
    | .ok .feeBump =>
      .error "Failed to decode transaction XDR: Expected standard Transaction, received FeeBumpTransaction"
    | .ok (.transaction tx signatures) => checkTransaction p tx signatures dateNow

/-- The key of a user's row is the e-mail. -/
abbrev User := Row String String

structure Wallet where
  userId : String
  publicKey : String
  label : Option String
  tags : List String
deriving DecidableEq, Repr

def Wallet.clash (a b : Wallet) : Bool := a.publicKey == b.publicKey

structure World (p : Platform) where
  user : Registry p.cuid String
  wallet : Table Wallet Wallet.clash

inductive Query where
  | findWallet (publicKey : String)
  /-- a user and a wallet of the user's, in one statement -/
  | createOwner (email publicKey : String)
  | findUser (email : String)
  | createUser (email : String)
  | createWallet (wallet : Wallet)
deriving DecidableEq, Repr

abbrev Value : Query → Type
  | .findWallet _ => Option (Wallet × Option User)
  | .createOwner _ _ => User
  | .findUser _ => Option User
  | .createUser _ => User
  | .createWallet _ => Wallet

abbrev Code := Interleaving.Code Query Value

/-- The message of the error with code `P2002`. -/
def P2002 : String := "Unique constraint failed"

def World.addUser {p : Platform} (w : World p) (email : String) : Option (User × World p) :=
  (w.user.create email).map fun user => (⟨p.cuid w.user.created,email⟩,{ w with user := user })
def World.addWallet {p : Platform} (w : World p) (wallet : Wallet) : Option (World p) :=
  (w.wallet.insert wallet).map fun table => { w with wallet := table }

def exec {p : Platform} (w : World p) : (q : Query) → Except String (Value q) × World p
  | .findWallet publicKey =>
    (.ok ((w.wallet.rows.find? fun row => row.publicKey == publicKey).map fun row =>
      (row,w.user.table.rows.find? fun user => user.id == row.userId)),w)
  | .createOwner email publicKey =>
    match w.addUser email with
    | none => (.error P2002,w)
    | some (user,w') =>
      match w'.addWallet ⟨user.id,publicKey,none,[]⟩ with
      | none => (.error P2002,w)
      | some w'' => (.ok user,w'')
  | .findUser email => (.ok (w.user.find email),w)
  | .createUser email =>
    match w.addUser email with
    | none => (.error P2002,w)
    | some (user,w') => (.ok user,w')
  | .createWallet wallet =>
    match w.addWallet wallet with
    | none => (.error P2002,w)
    | some w' =>
      if w.user.table.rows.any fun user => user.id == wallet.userId then (.ok wallet,w')
      else (.error "Foreign key constraint violated",w)

def ask (q : Query) : Code (Value q) := query q
def given {α : Type} (computed : Except String α) : Code α := ExceptT.mk (.returned computed)

/-- The token is given by the user that it is for. -/
structure SEP10AuthSessionResponse where
  id : String
  email : String
  publicKey : String
deriving DecidableEq, Repr

/-- None where the cut leaves half a character. -/
def placeholderEmail (p : Platform) (clientPublicKey : String) : Option String :=
  (substring clientPublicKey 12).map fun start => p.toLowerCase start ++ "@stellar-alerts.org"

/-- `verifyAndIssueSession` with the wallet that was found. -/
def openSession (p : Platform) (clientPublicKey : String) (wallet : Option (Wallet × Option User)) :
    Code SEP10AuthSessionResponse :=
  match wallet with
  | some (_,some user) => return ⟨user.id,user.key,clientPublicKey⟩
  | _ => do
    let email ← given ((placeholderEmail p clientPublicKey).elim (.error "Invalid text") .ok)
    let user ← ask (.createOwner email clientPublicKey)
    return ⟨user.id,user.key,clientPublicKey⟩

def verifyAndIssueSession (p : Platform) (transactionXdr : String) (dateNow : Nat) : Code SEP10AuthSessionResponse := do
  let clientPublicKey ← given (verifyChallenge p transactionXdr dateNow)
  let wallet ← ask (.findWallet clientPublicKey)
  openSession p clientPublicKey wallet

def normalizeTags (p : Platform) (tags : Option (List String)) : List String :=
  FirstOfKey.firsts (fun tag => tag ≠ "") p.toLowerCase ((tags.getD []).map fun raw => String.ofList (trim raw.toList))
def verifyZkProof (p : Platform) (proof : String) (publicSignals : List String) : Bool :=
  if publicSignals.isEmpty then false else p.groth16Verify proof publicSignals

def anonymousUser (p : Platform) (zkProof : String) (publicSignals : List String) : Code String := do
  if !verifyZkProof p zkProof publicSignals then throw "Invalid ZK proof"
  else
    let anonymousEmail := publicSignals.headD "undefined" ++ "@zkp.local"
    let anonUser ← ask (.findUser anonymousEmail)
    match anonUser with
    | some user => return user.id
    | none =>
      let user ← ask (.createUser anonymousEmail)
      return user.id

/-- An absent proof and an empty one are alike. -/
def targetUser (p : Platform) (userId : String) (zkProof : Option String) (publicSignals : Option (List String)) : Code String :=
  match zkProof, publicSignals with
  | some proof, some signals => if proof = "" then return userId else anonymousUser p proof signals
  | _, _ => return userId

def addWallet (p : Platform) (userId publicKey : String) (label : Option String) (tags : Option (List String))
    (zkProof : Option String) (publicSignals : Option (List String)) : Code Wallet := do
  let targetUserId ← targetUser p userId zkProof publicSignals
  tryCatch (ask (.createWallet ⟨targetUserId,publicKey,label,normalizeTags p tags⟩))
    fun error => if error = P2002 then throw "Wallet already exists" else throw error

inductive Task where
  | generateChallenge (clientPublicKey : String) (timeoutSeconds dateNow : Nat) (nonce : List UInt8)
  | verifyAndIssueSession (transactionXdr : String) (dateNow : Nat)
  | addWallet (userId publicKey : String) (label : Option String) (tags : Option (List String))
      (zkProof : Option String) (publicSignals : Option (List String))
deriving DecidableEq, Repr

inductive Reply where
  | challenge (result : SEP10ChallengeResult)
  | session (response : SEP10AuthSessionResponse)
  | wallet (wallet : Wallet)
deriving DecidableEq, Repr

def Task.program (p : Platform) : Task → Program Query Value (Except String Reply)
  | .generateChallenge clientPublicKey timeoutSeconds dateNow nonce =>
    (.challenge <$> given (Sep10.generateChallenge p clientPublicKey timeoutSeconds dateNow nonce) : Code Reply).run
  | .verifyAndIssueSession transactionXdr dateNow =>
    (.session <$> Sep10.verifyAndIssueSession p transactionXdr dateNow : Code Reply).run
  | .addWallet userId publicKey label tags zkProof publicSignals =>
    (.wallet <$> Sep10.addWallet p userId publicKey label tags zkProof publicSignals : Code Reply).run

/-- What happens besides: the holder of a key signs, somebody signs up in another way. -/
inductive Outside (p : Platform) where
  | sign (key : String) (hash : p.Hash)
  | createUser (email : String)

def Outside.apply {p : Platform} : Outside p → World p → World p
  | .sign _ _, w => w
  | .createUser email, w => (exec w (.createUser email)).2

abbrev System (p : Platform) := Interleaving.System (World p) Query Value (Except String Reply)
def step (p : Platform) : System p → Input Task (Outside p) → Option (Answered Query Value) × System p :=
  Interleaving.step exec (Task.program p) Outside.apply

end StellarAlerts.Sep10
