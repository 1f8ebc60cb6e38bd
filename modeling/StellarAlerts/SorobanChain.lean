import StellarAlerts.PagedLogs

/-!
The contract events of a chain, as the RPC serves them: in the order of their ledgers,
and for some contracts and a range of ledgers at a time. An answer is cut off where the
RPC likes, also within a ledger; which answers are cut off where is left open.
-/
namespace StellarAlerts.SorobanChain
open PagedLogs

/-- An event; two events may be the same in all that is kept of them. -/
structure ContractEvent (Topic : Type) where
  contractId : String
  ledger : Nat
  txHash : Option String
  topic : List Topic

structure Chain (Topic : Type) where
  log : Log (@ContractEvent.ledger Topic)
  numbered : ∀ event ∈ log.entries, 0 < event.ledger
  named : ∀ event ∈ log.entries, event.contractId ≠ ""

variable {Topic : Type}

def Chain.ofContracts (chain : Chain Topic) (ids : List String) : Log (@ContractEvent.ledger Topic) :=
  chain.log.keep fun event => event.contractId ∈ ids

/-- The answer to a call of `getEvents`: as many events as are let through, none where the call fails. -/
def Chain.getEvents (chain : Chain Topic) (ids : List String) (startLedger endLedger : Nat) (cut : Option Nat) :
    Option (List (ContractEvent Topic)) :=
  cut.map fun count => ((chain.ofContracts ids).range startLedger endLedger).take count

theorem mem_ofContracts {chain : Chain Topic} {ids : List String} {event : ContractEvent Topic} :
    event ∈ (chain.ofContracts ids).entries ↔ event ∈ chain.log.entries ∧ event.contractId ∈ ids := by
  simp [Chain.ofContracts,Log.keep]

end StellarAlerts.SorobanChain
