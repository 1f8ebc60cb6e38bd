import Mathlib.Logic.Basic

/-!
Calls of services over a network, as their callers see them: a call is carried
out and answered, refused, or carried out while its answer is lost.
-/
namespace StellarAlerts.RemoteCalls

inductive Outcome where
  | ok
  | failed (message : String)
  | lost (message : String)
deriving DecidableEq, Repr

/-- The error that the caller sees. -/
def Outcome.error : Outcome → Option String
  | .ok => none
  | .failed message => some message
  | .lost message => some message

/-- The call was carried out. -/
def Outcome.applied : Outcome → Bool
  | .failed _ => false
  | _ => true

/-- The state of the service after a call. -/
def Outcome.write {State : Type} (outcome : Outcome) (update : State → State) (s : State) : State :=
  if outcome.applied then update s else s

end StellarAlerts.RemoteCalls
