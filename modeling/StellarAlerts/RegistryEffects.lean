import StellarAlerts.AlertRegistry

/-!
What one invocation of the registry contract can do, stated once: `Effect` lists for
every call the guards that it passed and the storage it leaves, and `step_cases` shows
that an invocation either fails and changes nothing or has such an effect.
-/
namespace StellarAlerts.AlertRegistry
open Histories

private theorem bind_eq_ok {ε α β : Type} {x : Except ε α} {f : α → Except ε β} {y : β} (run : (x >>= f) = .ok y) :
    ∃ a, x = .ok a ∧ f a = .ok y := by
  cases x with
  | error e => cases run
  | ok a => exact ⟨a,rfl,run⟩

private theorem map_eq_ok {ε α β : Type} {x : Except ε α} {f : α → β} {y : β} (run : f <$> x = .ok y) :
    ∃ a, x = .ok a ∧ y = f a := by
  cases x with
  | error e => cases run
  | ok a => exact ⟨a,rfl,(Except.ok.inj run).symm⟩

variable {env : Env} {account : Address} {u : Unit}

theorem require_auth_ok (run : require_auth env account = .ok u) : account ∈ env.auths := by
  unfold require_auth at run
  split at run
  · assumption
  · cases run

theorem require_admin_ok {caller : Address} (run : require_admin env caller = .ok u) :
    caller ∈ env.auths ∧ get_admin env.storage = some caller := by
  obtain ⟨_,authorised,run⟩ := bind_eq_ok run
  refine ⟨require_auth_ok authorised,?_⟩
  cases found : get_admin env.storage with
  | none => simp [found] at run
  | some admin =>
    by_cases same : caller = admin
    · rw [same]
    · simp [found,same] at run

theorem require_signer_ok {caller : Address} (run : require_signer env caller = .ok u) :
    caller ∈ env.auths ∧ caller ∈ get_signers env.storage := by
  obtain ⟨_,authorised,run⟩ := bind_eq_ok run
  refine ⟨require_auth_ok authorised,?_⟩
  by_contra outside
  simp [outside] at run

def saved (s : Storage) (id : Nat) (proposal : ConfigProposal) : Storage :=
  if get_threshold s ≤ proposal.approvals.length then
    (s.set (.config proposal.key) proposal.value).set (.data (.Proposal id)) { proposal with executed := true }
  else s.set (.data (.Proposal id)) proposal

/-- The proposal that is saved: executed when its approvals reach the threshold. -/
def settled (s : Storage) (proposal : ConfigProposal) : ConfigProposal :=
  if get_threshold s ≤ proposal.approvals.length then { proposal with executed := true } else proposal

theorem save_and_maybe_execute_storage (env : Env) (id : Nat) (proposal : ConfigProposal) :
    (save_and_maybe_execute env id proposal).storage = saved env.storage id proposal := by
  unfold save_and_maybe_execute saved
  split <;> rfl

theorem saved_proposal (s : Storage) (id : Nat) (proposal : ConfigProposal) :
    get_proposal (saved s id proposal) id = some (settled s proposal) := by
  unfold saved settled get_proposal
  split <;> rw [set_self]

variable {proposal : ConfigProposal}

theorem saved_other (s : Storage) {id : Nat} {key : StorageKey} (entry : key ≠ .data (.Proposal id))
    (parameter : key ≠ .config proposal.key) : saved s id proposal key = s key := by
  unfold saved
  split
  · rw [set_other _ _ entry,set_other _ _ parameter]
  · rw [set_other _ _ entry]

/-- Saving a proposal writes a configuration parameter only when it executes. -/
theorem saved_config (s : Storage) (id : Nat) (proposal : ConfigProposal) (key : Symbol) :
    get_config (saved s id proposal) key = get_config s key ∨ get_threshold s ≤ proposal.approvals.length := by
  unfold saved get_config
  split
  · exact .inr ‹_›
  · rw [set_other _ _ (by simp)]
    exact .inl rfl

@[simp] theorem settled_key (s : Storage) (proposal : ConfigProposal) : (settled s proposal).key = proposal.key := by
  unfold settled; split <;> rfl
@[simp] theorem settled_value (s : Storage) (proposal : ConfigProposal) :
    (settled s proposal).value = proposal.value := by
  unfold settled; split <;> rfl
@[simp] theorem settled_approvals (s : Storage) (proposal : ConfigProposal) :
    (settled s proposal).approvals = proposal.approvals := by
  unfold settled; split <;> rfl

theorem settled_executed (s : Storage) (pending : proposal.executed = false) :
    (settled s proposal).executed = true ↔ get_threshold s ≤ proposal.approvals.length := by
  unfold settled
  split
  next reached => simp [reached]
  next short => simp [pending,short]

/-- The guards that a successful call passed and the storage that it leaves. -/
inductive Effect (s : Storage) (auths : List Address) : Call → Answer → Storage → Prop
  | initialize_contract {admin} (unset : get_admin s = none) (auth : admin ∈ auths) :
      Effect s auths (.initialize_contract admin) .unit (s.set .admin admin)
  | set_admin {admin new_admin} (auth : admin ∈ auths) (current : get_admin s = some admin) :
      Effect s auths (.set_admin admin new_admin) .unit (s.set .admin new_admin)
  | update_config {admin current key value} (auth : admin ∈ auths) (found : get_admin s = some current)
      (permitted : admin = current ∨ has_role s admin .ConfigManager = true) (single : get_threshold s ≤ 1) :
      Effect s auths (.update_config admin key value) .unit (s.set (.config key) value)
  | grant_role {admin account role} (auth : admin ∈ auths) (current : get_admin s = some admin) :
      Effect s auths (.grant_role admin account role) .unit (s.set (.data (.Role account role)) true)
  | revoke_role {admin account role} (auth : admin ∈ auths) (current : get_admin s = some admin) :
      Effect s auths (.revoke_role admin account role) .unit (s.remove (.data (.Role account role)))
  | set_signers {admin signers threshold} (auth : admin ∈ auths) (current : get_admin s = some admin)
      (positive : threshold ≠ 0) (enough : threshold ≤ signers.length) :
      Effect s auths (.set_signers admin signers threshold) .unit
        ((s.set (.data .Signers) signers).set (.data .Threshold) threshold)
  | propose_config {proposer key value} (auth : proposer ∈ auths) (signer : proposer ∈ get_signers s)
      (room : next_proposal s < u32_max) :
      Effect s auths (.propose_config proposer key value) (.id (next_proposal s))
        (saved (s.set (.data .NextProposal) (next_proposal s + 1 : Nat)) (next_proposal s) ⟨key,value,[proposer],false⟩)
  | approve_proposal {signer id proposal} (auth : signer ∈ auths) (member : signer ∈ get_signers s)
      (found : get_proposal s id = some proposal) (pending : proposal.executed = false)
      (first : signer ∉ proposal.approvals) :
      Effect s auths (.approve_proposal signer id) .unit
        (saved s id { proposal with approvals := proposal.approvals ++ [signer] })
  | register_listener {user channel target} (auth : user ∈ auths) :
      Effect s auths (.register_listener user channel target) .unit (s.set (.listener user channel) target)
  | register_known_wallet {user wallet} (auth : user ∈ auths) (known : wallet ∈ get_wallets s user) :
      Effect s auths (.register_wallet user wallet) .unit s
  | register_new_wallet {user wallet} (auth : user ∈ auths) (fresh : wallet ∉ get_wallets s user) :
      Effect s auths (.register_wallet user wallet) .unit (s.set (.wallets user) (get_wallets s user ++ [wallet]))
  | subscribe {user subscription} (auth : user ∈ auths) (known : subscription.wallet ∈ get_wallets s user) :
      Effect s auths (.subscribe user subscription) .unit
        (s.set (.subs user subscription.wallet subscription.channel) subscription)
  | unsubscribe {user wallet channel} (auth : user ∈ auths)
      (found : (get_subscription s user wallet channel).isSome) :
      Effect s auths (.unsubscribe user wallet channel) .unit (s.remove (.subs user wallet channel))

variable {env' : Env} {admin : Address}

theorem initialize_contract_effect (run : initialize_contract env admin = .ok env') :
    Effect env.storage env.auths (.initialize_contract admin) .unit env'.storage := by
  unfold initialize_contract at run
  split at run
  · cases run
  next unset =>
    obtain ⟨_,auth,run⟩ := bind_eq_ok run
    cases run
    exact .initialize_contract (by simpa using unset) (require_auth_ok auth)

theorem set_admin_effect {new_admin : Address} (run : set_admin env admin new_admin = .ok env') :
    Effect env.storage env.auths (.set_admin admin new_admin) .unit env'.storage := by
  obtain ⟨_,guarded,run⟩ := bind_eq_ok run
  obtain ⟨auth,current⟩ := require_admin_ok guarded
  cases run
  exact .set_admin auth current

theorem update_config_effect {key : Symbol} {value : String} (run : update_config env admin key value = .ok env') :
    Effect env.storage env.auths (.update_config admin key value) .unit env'.storage := by
  obtain ⟨_,auth,run⟩ := bind_eq_ok run
  cases found : get_admin env.storage with
  | none => simp [found] at run
  | some current =>
    simp only [found] at run
    split at run
    · cases run
    next allowed =>
      cases run
      rw [not_or,not_not] at allowed
      exact .update_config (require_auth_ok auth) found allowed.1 (Nat.le_of_not_lt allowed.2)

theorem grant_role_effect {role : Role} (run : grant_role env admin account role = .ok env') :
    Effect env.storage env.auths (.grant_role admin account role) .unit env'.storage := by
  obtain ⟨_,guarded,run⟩ := bind_eq_ok run
  obtain ⟨auth,current⟩ := require_admin_ok guarded
  cases run
  exact .grant_role auth current

theorem revoke_role_effect {role : Role} (run : revoke_role env admin account role = .ok env') :
    Effect env.storage env.auths (.revoke_role admin account role) .unit env'.storage := by
  obtain ⟨_,guarded,run⟩ := bind_eq_ok run
  obtain ⟨auth,current⟩ := require_admin_ok guarded
  cases run
  exact .revoke_role auth current

theorem set_signers_effect {signers : List Address} {threshold : Nat}
    (run : set_signers env admin signers threshold = .ok env') :
    Effect env.storage env.auths (.set_signers admin signers threshold) .unit env'.storage := by
  obtain ⟨_,guarded,run⟩ := bind_eq_ok run
  obtain ⟨auth,current⟩ := require_admin_ok guarded
  split at run
  · cases run
  next accepted =>
    cases run
    rw [not_or] at accepted
    exact .set_signers auth current accepted.1 (Nat.le_of_not_lt accepted.2)

theorem propose_config_effect {proposer : Address} {key : Symbol} {value : String} {id : Nat}
    (run : propose_config env proposer key value = .ok (id,env')) :
    Effect env.storage env.auths (.propose_config proposer key value) (.id id) env'.storage := by
  obtain ⟨_,guarded,run⟩ := bind_eq_ok run
  obtain ⟨auth,signer⟩ := require_signer_ok guarded
  dsimp only at run
  split at run
  · cases run
  next room =>
    cases run
    rw [save_and_maybe_execute_storage]
    exact .propose_config auth signer (Nat.lt_of_not_le room)

theorem approve_proposal_effect {signer : Address} {id : Nat} (run : approve_proposal env signer id = .ok env') :
    Effect env.storage env.auths (.approve_proposal signer id) .unit env'.storage := by
  obtain ⟨_,guarded,run⟩ := bind_eq_ok run
  obtain ⟨auth,member⟩ := require_signer_ok guarded
  cases found : get_proposal env.storage id with
  | none => simp [found] at run
  | some proposal =>
    simp only [found] at run
    split at run
    · cases run
    next pending =>
      split at run
      · cases run
      next first =>
        cases run
        rw [save_and_maybe_execute_storage]
        exact .approve_proposal auth member found (by simpa using pending) first

theorem register_listener_effect {user : Address} {channel : Symbol} {target : String}
    (run : register_listener env user channel target = .ok env') :
    Effect env.storage env.auths (.register_listener user channel target) .unit env'.storage := by
  obtain ⟨_,auth,run⟩ := bind_eq_ok run
  cases run
  exact .register_listener (require_auth_ok auth)

theorem register_wallet_effect {user wallet : Address} (run : register_wallet env user wallet = .ok env') :
    Effect env.storage env.auths (.register_wallet user wallet) .unit env'.storage := by
  obtain ⟨_,auth,run⟩ := bind_eq_ok run
  cases run
  by_cases known : wallet ∈ get_wallets env.storage user
  · simpa [known,Env.publish] using Effect.register_known_wallet (require_auth_ok auth) known
  · simpa [known,Env.publish,Env.set] using Effect.register_new_wallet (require_auth_ok auth) known

theorem subscribe_effect {user : Address} {subscription : AlertSubscription}
    (run : subscribe env user subscription = .ok env') :
    Effect env.storage env.auths (.subscribe user subscription) .unit env'.storage := by
  obtain ⟨_,auth,run⟩ := bind_eq_ok run
  split at run
  · cases run
  next known =>
    cases run
    exact .subscribe (require_auth_ok auth) (not_not.mp known)

theorem unsubscribe_effect {user wallet : Address} {channel : Symbol} (run : unsubscribe env user wallet channel = .ok env') :
    Effect env.storage env.auths (.unsubscribe user wallet channel) .unit env'.storage := by
  obtain ⟨_,auth,run⟩ := bind_eq_ok run
  split at run
  · cases run
  next found =>
    cases run
    exact .unsubscribe (require_auth_ok auth) (Option.isSome_iff_ne_none.mpr (by simpa using found))

theorem invoke_effect {call : Call} {answer : Answer} (run : invoke env call = .ok (answer,env')) :
    Effect env.storage env.auths call answer env'.storage := by
  cases call <;> obtain ⟨_,called,done⟩ := map_eq_ok run <;> cases done
  case initialize_contract => exact initialize_contract_effect called
  case set_admin => exact set_admin_effect called
  case update_config => exact update_config_effect called
  case grant_role => exact grant_role_effect called
  case revoke_role => exact revoke_role_effect called
  case set_signers => exact set_signers_effect called
  case propose_config => exact propose_config_effect called
  case approve_proposal => exact approve_proposal_effect called
  case register_listener => exact register_listener_effect called
  case register_wallet => exact register_wallet_effect called
  case subscribe => exact subscribe_effect called
  case unsubscribe => exact unsubscribe_effect called

/-- An invocation fails and leaves the storage alone, or it has an effect. -/
theorem step_cases (s : Storage) (invocation : Invocation) :
    (∃ fault, step s invocation = (.error fault,s)) ∨
      ∃ answer events, (step s invocation).1 = .ok (answer,events) ∧
        Effect s invocation.auths invocation.call answer (step s invocation).2 := by
  unfold step
  cases run : invoke ⟨invocation.auths,s,[]⟩ invocation.call with
  | error fault => exact .inl ⟨fault,rfl⟩
  | ok result => exact .inr ⟨result.1,result.2.events,rfl,invoke_effect run⟩

def Call.writes (s : Storage) : Call → List StorageKey
  | .initialize_contract _ => [.admin]
  | .set_admin _ _ => [.admin]
  | .update_config _ key _ => [.config key]
  | .grant_role _ account role => [.data (.Role account role)]
  | .revoke_role _ account role => [.data (.Role account role)]
  | .set_signers _ _ _ => [.data .Signers,.data .Threshold]
  | .propose_config _ key _ => [.data .NextProposal,.data (.Proposal (next_proposal s)),.config key]
  | .approve_proposal _ id =>
    .data (.Proposal id) :: ((get_proposal s id).map (fun proposal => StorageKey.config proposal.key)).toList
  | .register_listener user channel _ => [.listener user channel]
  | .register_wallet user _ => [.wallets user]
  | .subscribe user subscription => [.subs user subscription.wallet subscription.channel]
  | .unsubscribe user wallet channel => [.subs user wallet channel]

theorem effect_frame {s s' : Storage} {auths : List Address} {call : Call} {answer : Answer}
    (effect : Effect s auths call answer s') {key : StorageKey} (outside : key ∉ call.writes s) : s' key = s key := by
  cases effect with
  | set_signers =>
    simp only [Call.writes,List.mem_cons,List.not_mem_nil,or_false,not_or] at outside
    rw [set_other _ _ outside.2,set_other _ _ outside.1]
  | propose_config =>
    simp only [Call.writes,List.mem_cons,List.not_mem_nil,or_false,not_or] at outside
    rw [saved_other _ outside.2.1 outside.2.2,set_other _ _ outside.1]
  | approve_proposal _ _ found =>
    simp only [Call.writes,found,Option.map_some,Option.toList_some,List.mem_cons,List.not_mem_nil,or_false,
      not_or] at outside
    exact saved_other _ outside.1 outside.2
  | register_known_wallet => rfl
  | revoke_role => exact remove_other _ (by simpa [Call.writes] using outside)
  | unsubscribe => exact remove_other _ (by simpa [Call.writes] using outside)
  | _ => exact set_other _ _ (by simpa [Call.writes] using outside)

end StellarAlerts.AlertRegistry
