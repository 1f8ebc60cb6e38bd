import Mathlib.Algebra.Group.Nat.Defs
import StellarAlerts.Histories

/-!
The on-chain alert registry contract (`contracts/alert_registry/src/lib.rs`). A contract
function that returns an error or panics leaves the storage as it was (`step`): the host
rolls the invocation back.
-/
namespace StellarAlerts.AlertRegistry
open Histories

abbrev Address := String
abbrev Symbol := String

/-- An alert subscription binding a registered wallet to a delivery channel and its target. -/
structure AlertSubscription where
  wallet : Address
  channel : Symbol
  target : String
  active : Bool
deriving DecidableEq, Repr

/-- Roles that the admin can delegate. -/
inductive Role
  | ConfigManager
deriving DecidableEq, Repr

/-- Storage keys for governance state. -/
inductive DataKey
  | Signers
  | Threshold
  | NextProposal
  | Proposal (id : Nat)
  | Role (account : Address) (role : Role)
deriving DecidableEq, Repr

/-- A multisig proposal to change a configuration parameter. -/
structure ConfigProposal where
  key : Symbol
  value : String
  approvals : List Address
  executed : Bool
deriving DecidableEq, Repr

inductive Error
  | Unauthorized
  | AlreadyInitialized
  | NotInitialized
  | WalletNotRegistered
  | SubscriptionNotFound
  | InvalidThreshold
  | ProposalNotFound
  | AlreadyApproved
  | ProposalAlreadyExecuted
deriving DecidableEq, Repr

/-- The codes that the contract reports. -/
def Error.code : Error → Nat
  | .Unauthorized => 1
  | .AlreadyInitialized => 2
  | .NotInitialized => 3
  | .WalletNotRegistered => 4
  | .SubscriptionNotFound => 5
  | .InvalidThreshold => 6
  | .ProposalNotFound => 7
  | .AlreadyApproved => 8
  | .ProposalAlreadyExecuted => 9

/-- Why an invocation fails: an error that the contract returns, one that it
    panics with, a missing authorisation, or an arithmetic overflow. -/
inductive Fault
  | returned (e : Error)
  | panicked (e : Error)
  | unauthenticated (account : Address)
  | overflow
deriving DecidableEq, Repr

/-- The keys of the instance storage: `ADMIN_KEY`, `(CONFIG_KEY, key)`, the `DataKey` variants, `(user, channel)`, `(WALLETS_KEY, user)`
    and `(SUBS_KEY, user, wallet, channel)`. -/
inductive StorageKey
  | admin
  | config (key : Symbol)
  | data (key : DataKey)
  | listener (user : Address) (channel : Symbol)
  | wallets (user : Address)
  | subs (user wallet : Address) (channel : Symbol)
deriving DecidableEq, Repr

/-- What the contract stores under a key. -/
@[reducible] def StorageKey.Value : StorageKey → Type
  | .admin => Address
  | .config _ => String
  | .data .Signers => List Address
  | .data .Threshold => Nat
  | .data .NextProposal => Nat
  | .data (.Proposal _) => ConfigProposal
  | .data (.Role _ _) => Bool
  | .listener _ _ => String
  | .wallets _ => List Address
  | .subs _ _ _ => AlertSubscription

/-- The host's values, as far as the contract builds keys of them. -/
inductive ScVal
  | symbol (s : Symbol)
  | u32 (n : Nat)
  | address (a : Address)
  | vec (items : List ScVal)

/-- The value that a role converts to. -/
def Role.toScVal : Role → ScVal
  | .ConfigManager => .vec [.symbol "ConfigManager"]

/-- The value that a `DataKey` converts to: its variant's name and fields. -/
def DataKey.toScVal : DataKey → ScVal
  | .Signers => .vec [.symbol "Signers"]
  | .Threshold => .vec [.symbol "Threshold"]
  | .NextProposal => .vec [.symbol "NextProposal"]
  | .Proposal id => .vec [.symbol "Proposal",.u32 id]
  | .Role account role => .vec [.symbol "Role",.address account,role.toScVal]

/-- The value under which the host files an entry of the instance storage. -/
def StorageKey.toScVal : StorageKey → ScVal
  | .admin => .symbol "ADMIN"
  | .config key => .vec [.symbol "CONFIG",.symbol key]
  | .data key => key.toScVal
  | .listener user channel => .vec [.address user,.symbol channel]
  | .wallets user => .vec [.symbol "WALLETS",.address user]
  | .subs user wallet channel => .vec [.symbol "SUBS",.address user,.address wallet,.symbol channel]

/-- The instance storage: at most one value under every key. -/
abbrev Storage := (key : StorageKey) → Option key.Value

def Storage.set (s : Storage) (key : StorageKey) (value : key.Value) : Storage := Function.update s key (some value)
def Storage.remove (s : Storage) (key : StorageKey) : Storage := Function.update s key none

@[simp] theorem set_self (s : Storage) (key : StorageKey) (value : key.Value) : s.set key value key = some value := by
  rw [Storage.set,Function.update_self]
theorem set_other (s : Storage) {key other : StorageKey} (value : key.Value) (ne : other ≠ key) :
    s.set key value other = s other := by
  rw [Storage.set,Function.update_of_ne ne]
@[simp] theorem remove_self (s : Storage) (key : StorageKey) : s.remove key key = none := by
  rw [Storage.remove,Function.update_self]
theorem remove_other (s : Storage) {key other : StorageKey} (ne : other ≠ key) : s.remove key other = s other := by
  rw [Storage.remove,Function.update_of_ne ne]

/-- The storage of a contract that was only deployed. -/
def Storage.empty : Storage := fun _ => none

/-- Returns the current registered admin address if set. -/
def get_admin (s : Storage) : Option Address := s .admin

/-- Returns whether `account` currently holds `role`. -/
def has_role (s : Storage) (account : Address) (role : Role) : Bool := (s (.data (.Role account role))).isSome

/-- Returns the multisig signers (empty when governance is single-admin). -/
def get_signers (s : Storage) : List Address := (s (.data .Signers)).getD []

/-- Returns the approvals required to execute a proposal (default 1). -/
def get_threshold (s : Storage) : Nat := (s (.data .Threshold)).getD (1 : Nat)

def get_proposal (s : Storage) (id : Nat) : Option ConfigProposal := s (.data (.Proposal id))

/-- Retrieves a contract configuration parameter by symbol key. -/
def get_config (s : Storage) (key : Symbol) : Option String := s (.config key)

/-- Queries the registered alert target for a given user and channel. -/
def get_listener (s : Storage) (user : Address) (channel : Symbol) : Option String := s (.listener user channel)

def get_wallets (s : Storage) (user : Address) : List Address := (s (.wallets user)).getD []
def get_subscription (s : Storage) (user wallet : Address) (channel : Symbol) : Option AlertSubscription :=
  s (.subs user wallet channel)
def next_proposal (s : Storage) : Nat := (s (.data .NextProposal)).getD (0 : Nat)

/-- The events that the contract publishes, by their first topic. -/
inductive Event
  | REGISTERED (user : Address) (channel : Symbol) (target : String)
  | WALREG (user wallet : Address)
  | SUB (user wallet : Address) (channel : Symbol)
  | UNSUB (user wallet : Address) (channel : Symbol)
  | CFG (key : Symbol) (value : String)
  | PROPOSE (id : Nat) (key : Symbol)
  | ROLE (account : Address) (granted : Bool)
deriving DecidableEq, Repr

/-- What the host gives a contract function: who authorised the invocation, the storage and the events published so far. -/
structure Env where
  auths : List Address
  storage : Storage
  events : List Event

def Env.set (env : Env) (key : StorageKey) (value : key.Value) : Env := { env with storage := env.storage.set key value }
def Env.remove (env : Env) (key : StorageKey) : Env := { env with storage := env.storage.remove key }
def Env.publish (env : Env) (event : Event) : Env := { env with events := env.events ++ [event] }

/-- The largest `u32`. -/
def u32_max : Nat := 2 ^ 32 - 1

/-- `Address::require_auth`. -/
def require_auth (env : Env) (account : Address) : Except Fault Unit :=
  if account ∈ env.auths then .ok () else .error (.unauthenticated account)

/-- Authenticates `caller` and panics unless it is the current admin. -/
def require_admin (env : Env) (caller : Address) : Except Fault Unit := do
  require_auth env caller
  match get_admin env.storage with
  | none => .error (.returned .NotInitialized)
  | some admin => if caller ≠ admin then .error (.panicked .Unauthorized) else .ok ()

/-- Authenticates `caller` and panics unless it is a registered signer. -/
def require_signer (env : Env) (caller : Address) : Except Fault Unit := do
  require_auth env caller
  if caller ∉ get_signers env.storage then .error (.panicked .Unauthorized) else .ok ()

def write_config (env : Env) (key : Symbol) (value : String) : Env :=
  (env.set (.config key) value).publish (.CFG key value)

/-- Persists the proposal, applying it if it has reached the threshold. -/
def save_and_maybe_execute (env : Env) (id : Nat) (proposal : ConfigProposal) : Env :=
  if get_threshold env.storage ≤ proposal.approvals.length then
    (write_config env proposal.key proposal.value).set (.data (.Proposal id)) { proposal with executed := true }
  else env.set (.data (.Proposal id)) proposal

def initialize_contract (env : Env) (admin : Address) : Except Fault Env := do
  if (get_admin env.storage).isSome then .error (.returned .AlreadyInitialized) else
  require_auth env admin
  return env.set .admin admin

def set_admin (env : Env) (admin new_admin : Address) : Except Fault Env := do
  require_admin env admin
  return env.set .admin new_admin

/-- Updates a configuration parameter directly: the admin or a `ConfigManager`, only while the threshold is at most 1. -/
def update_config (env : Env) (admin : Address) (key : Symbol) (value : String) : Except Fault Env := do
  require_auth env admin
  match get_admin env.storage with
  | none => .error (.returned .NotInitialized)
  | some current_admin =>
    let permitted := admin = current_admin ∨ has_role env.storage admin .ConfigManager = true
    if ¬ permitted ∨ 1 < get_threshold env.storage then .error (.panicked .Unauthorized)
    else .ok (write_config env key value)

def grant_role (env : Env) (admin account : Address) (role : Role) : Except Fault Env := do
  require_admin env admin
  return (env.set (.data (.Role account role)) true).publish (.ROLE account true)

def revoke_role (env : Env) (admin account : Address) (role : Role) : Except Fault Env := do
  require_admin env admin
  return (env.remove (.data (.Role account role))).publish (.ROLE account false)

def set_signers (env : Env) (admin : Address) (signers : List Address) (threshold : Nat) : Except Fault Env := do
  require_admin env admin
  if threshold = 0 ∨ signers.length < threshold then .error (.returned .InvalidThreshold)
  else .ok ((env.set (.data .Signers) signers).set (.data .Threshold) threshold)

/-- Opens a proposal with the proposer's approval and returns its id. The id
    counter is a `u32` whose overflow panics (`overflow-checks`). -/
def propose_config (env : Env) (proposer : Address) (key : Symbol) (value : String) : Except Fault (Nat × Env) := do
  require_signer env proposer
  let id := next_proposal env.storage
  if u32_max ≤ id then .error .overflow else
  let env := env.set (.data .NextProposal) (id + 1 : Nat)
  let proposal : ConfigProposal := ⟨key,value,[proposer],false⟩
  let env := env.publish (.PROPOSE id proposal.key)
  return (id,save_and_maybe_execute env id proposal)

/-- Adds a signer's approval to a proposal, executing it once the threshold is reached. -/
def approve_proposal (env : Env) (signer : Address) (id : Nat) : Except Fault Env := do
  require_signer env signer
  match get_proposal env.storage id with
  | none => .error (.returned .ProposalNotFound)
  | some proposal =>
    if proposal.executed then .error (.returned .ProposalAlreadyExecuted) else
    if signer ∈ proposal.approvals then .error (.returned .AlreadyApproved) else
    .ok (save_and_maybe_execute env id { proposal with approvals := proposal.approvals ++ [signer] })

def register_listener (env : Env) (user : Address) (channel : Symbol) (target : String) : Except Fault Env := do
  require_auth env user
  return (env.set (.listener user channel) target).publish (.REGISTERED user channel target)

def register_wallet (env : Env) (user wallet : Address) : Except Fault Env := do
  require_auth env user
  let wallets := get_wallets env.storage user
  let env := if wallet ∈ wallets then env else env.set (.wallets user) (wallets ++ [wallet])
  return env.publish (.WALREG user wallet)

def subscribe (env : Env) (user : Address) (subscription : AlertSubscription) : Except Fault Env := do
  require_auth env user
  if subscription.wallet ∉ get_wallets env.storage user then .error (.returned .WalletNotRegistered)
  else .ok ((env.set (.subs user subscription.wallet subscription.channel) subscription).publish
    (.SUB user subscription.wallet subscription.channel))

/-- Removes a wallet's alert subscription for a given channel. -/
def unsubscribe (env : Env) (user wallet : Address) (channel : Symbol) : Except Fault Env := do
  require_auth env user
  if (get_subscription env.storage user wallet channel).isNone then .error (.returned .SubscriptionNotFound)
  else .ok ((env.remove (.subs user wallet channel)).publish (.UNSUB user wallet channel))

/-- The calls that can write; the views above only read the storage. -/
inductive Call
  | initialize_contract (admin : Address)
  | set_admin (admin new_admin : Address)
  | update_config (admin : Address) (key : Symbol) (value : String)
  | grant_role (admin account : Address) (role : Role)
  | revoke_role (admin account : Address) (role : Role)
  | set_signers (admin : Address) (signers : List Address) (threshold : Nat)
  | propose_config (proposer : Address) (key : Symbol) (value : String)
  | approve_proposal (signer : Address) (id : Nat)
  | register_listener (user : Address) (channel : Symbol) (target : String)
  | register_wallet (user wallet : Address)
  | subscribe (user : Address) (subscription : AlertSubscription)
  | unsubscribe (user wallet : Address) (channel : Symbol)
deriving DecidableEq, Repr

/-- A call with the addresses that authorised it. -/
structure Invocation where
  auths : List Address
  call : Call

/-- What a successful call returns. -/
inductive Answer
  | unit
  | id (id : Nat)
deriving DecidableEq, Repr

def invoke (env : Env) : Call → Except Fault (Answer × Env)
  | .initialize_contract admin => (Answer.unit,·) <$> initialize_contract env admin
  | .set_admin admin new_admin => (Answer.unit,·) <$> set_admin env admin new_admin
  | .update_config admin key value => (Answer.unit,·) <$> update_config env admin key value
  | .grant_role admin account role => (Answer.unit,·) <$> grant_role env admin account role
  | .revoke_role admin account role => (Answer.unit,·) <$> revoke_role env admin account role
  | .set_signers admin signers threshold => (Answer.unit,·) <$> set_signers env admin signers threshold
  | .propose_config proposer key value => (fun r => (Answer.id r.1,r.2)) <$> propose_config env proposer key value
  | .approve_proposal signer id => (Answer.unit,·) <$> approve_proposal env signer id
  | .register_listener user channel target => (Answer.unit,·) <$> register_listener env user channel target
  | .register_wallet user wallet => (Answer.unit,·) <$> register_wallet env user wallet
  | .subscribe user subscription => (Answer.unit,·) <$> subscribe env user subscription
  | .unsubscribe user wallet channel => (Answer.unit,·) <$> unsubscribe env user wallet channel

/-- What an invocation reports: the returned value and the published events, or why it failed. -/
abbrev Outcome := Except Fault (Answer × List Event)

def step (s : Storage) (invocation : Invocation) : Outcome × Storage :=
  match invoke ⟨invocation.auths,s,[]⟩ invocation.call with
  | .ok (answer,env) => (.ok (answer,env.events),env.storage)
  | .error fault => (.error fault,s)

abbrev Step := Transition Storage Invocation Outcome

end StellarAlerts.AlertRegistry
