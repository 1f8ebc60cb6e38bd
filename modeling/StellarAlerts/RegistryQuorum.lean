import StellarAlerts.RegistryProposals
import Mathlib.Data.List.Perm.Subperm

/-!
Whether the signers of the registry can execute a proposal at all. The signers can
execute a proposal exactly when the list has as many distinct accounts as the threshold
asks for (`executable_iff`), which an accepted list can miss (`repeated_signer_locks`).
-/
namespace StellarAlerts.AlertRegistry
open Histories

def approval (id : Nat) (account : Address) : Invocation := ⟨[account],.approve_proposal account id⟩

/-- Every proposal that a signer makes can be executed by approvals of other distinct signers. -/
def Executable (s : Storage) : Prop :=
  ∀ proposer ∈ get_signers s, ∀ key value id events s',
    step s ⟨[proposer],.propose_config proposer key value⟩ = (.ok (.id id,events),s') →
      ∃ approvers : List Address, (proposer :: approvers).Nodup ∧ (∀ account ∈ approvers, account ∈ get_signers s) ∧
        Executed (run step s' (approvers.map (approval id))) id

def repeats (signers : List Address) : Nat := signers.length - signers.dedup.length

variable {s : Storage} {proposer : Address}

theorem propose_step (member : proposer ∈ get_signers s) (room : next_proposal s < u32_max) (key : Symbol) (value : String) :
    ∃ events, step s ⟨[proposer],.propose_config proposer key value⟩ =
      (.ok (.id (next_proposal s),events),
        saved (s.set (.data .NextProposal) (next_proposal s + 1 : Nat)) (next_proposal s) ⟨key,value,[proposer],false⟩) := by
  have inside : ¬ u32_max ≤ next_proposal s := by omega
  have invoked : ∃ env : Env, invoke ⟨[proposer],s,[]⟩ (.propose_config proposer key value) =
        .ok (.id (next_proposal s),save_and_maybe_execute env (next_proposal s) ⟨key,value,[proposer],false⟩) ∧
      env.storage = s.set (.data .NextProposal) (next_proposal s + 1 : Nat) := by
    refine ⟨(Env.set ⟨[proposer],s,[]⟩ (.data .NextProposal) (next_proposal s + 1 : Nat)).publish
      (.PROPOSE (next_proposal s) key),?_,rfl⟩
    simp [invoke,propose_config,require_signer,require_auth,member,inside,Functor.map,Except.map,bind,Except.bind,
      pure,Except.pure]
  obtain ⟨env,invoked,storage⟩ := invoked
  refine ⟨(save_and_maybe_execute env (next_proposal s) ⟨key,value,[proposer],false⟩).events,?_⟩
  rw [step,invoked,← storage,← save_and_maybe_execute_storage]

theorem approve_step {account : Address} {id : Nat} {p : ConfigProposal} (member : account ∈ get_signers s)
    (found : get_proposal s id = some p) (pending : p.executed = false) (first : account ∉ p.approvals) :
    (step s (approval id account)).2 = saved s id { p with approvals := p.approvals ++ [account] } := by
  rw [← save_and_maybe_execute_storage ⟨[account],s,[]⟩]
  simp [step,approval,invoke,approve_proposal,require_signer,require_auth,member,found,pending,first,Functor.map,
    Except.map,bind,Except.bind]

theorem saved_signers (s : Storage) (id : Nat) (p : ConfigProposal) : get_signers (saved s id p) = get_signers s := by
  rw [get_signers,saved_other _ (by simp) (by simp),get_signers]
theorem saved_threshold (s : Storage) (id : Nat) (p : ConfigProposal) :
    get_threshold (saved s id p) = get_threshold s := by
  rw [get_threshold,saved_other _ (by simp) (by simp),get_threshold]

theorem approvals_execute {id : Nat} (approvers : List Address) {p : ConfigProposal} (found : get_proposal s id = some p)
    (pending : p.executed = false) (some_ : approvers ≠ []) (distinct : (p.approvals ++ approvers).Nodup)
    (members : ∀ account ∈ approvers, account ∈ get_signers s)
    (reaches : p.approvals.length + approvers.length = get_threshold s) :
    Executed (run step s (approvers.map (approval id))) id := by
  induction approvers generalizing s p with
  | nil => exact absurd rfl some_
  | cons account rest ih =>
    have first : account ∉ p.approvals := by
      intro listed
      exact (List.nodup_append.mp distinct).2.2 account listed account (List.mem_cons_self ..) rfl
    rw [List.map_cons,run_cons,approve_step (members account (List.mem_cons_self ..)) found pending first]
    set q : ConfigProposal := { p with approvals := p.approvals ++ [account] } with qIs
    have lengthQ : q.approvals.length = p.approvals.length + 1 := by simp [qIs]
    have foundQ := saved_proposal s id q
    have flag : (settled s q).executed = true ↔ _ := settled_executed s pending
    rw [List.length_cons] at reaches
    cases rest with
    | nil => exact ⟨_,foundQ,flag.mpr (by rw [lengthQ,← reaches]; simp)⟩
    | cons next rest =>
      rw [List.length_cons] at reaches
      apply ih foundQ
      · rw [← Bool.not_eq_true,flag]
        omega
      · simp
      · simpa [qIs] using distinct
      · intro other listed
        rw [saved_signers]
        exact members other (List.mem_cons_of_mem _ listed)
      · rw [settled_approvals,saved_threshold,lengthQ,List.length_cons]
        omega

/-- A proposal that only signers have approved, with the threshold reached when it is executed. -/
structure Carried (signers : List Address) (threshold id : Nat) (s : Storage) : Prop where
  ok : ProposalsOk s
  signersAre : get_signers s = signers
  thresholdIs : get_threshold s = threshold
  members : ∀ p, get_proposal s id = some p → ∀ account ∈ p.approvals, account ∈ signers
  enough : ∀ p, get_proposal s id = some p → p.executed = true → threshold ≤ p.approvals.length

variable {signers : List Address}

theorem carried_approval {threshold id : Nat} {account : Address} (carried : Carried signers threshold id s) :
    Carried signers threshold id (step s (approval id account)).2 := by
  rcases step_cases s (approval id account) with ⟨fault,failed⟩ | ⟨answer,events,_,effect⟩
  · rw [failed]; exact carried
  have same : get_signers (step s (approval id account)).2 = get_signers s ∧
      get_threshold (step s (approval id account)).2 = get_threshold s := by
    rcases effect_signers effect with same | ⟨_,_,_,called,_⟩
    · exact same
    · cases called
  constructor
  · exact proposalsOk_step s _ carried.ok
  · rw [same.1,carried.signersAre]
  · rw [same.2,carried.thresholdIs]
  · intro p found other listed
    rcases effect_proposal effect id with kept | ⟨_,_,_,called,_⟩ | ⟨_,q,_,_,member,foundQ,_,_,stored⟩
    · exact carried.members p (kept ▸ found) other listed
    · cases called
    · obtain rfl := Option.some.inj (found.symm.trans stored)
      rw [settled_approvals,List.mem_append,List.mem_singleton] at listed
      rcases listed with old | rfl
      · exact carried.members q foundQ other old
      · exact carried.signersAre ▸ member
  · intro p found executed
    rcases effect_proposal effect id with kept | ⟨_,_,_,called,_⟩ | ⟨_,q,_,_,_,_,pending,_,stored⟩
    · exact carried.enough p (kept ▸ found) executed
    · cases called
    · obtain rfl := Option.some.inj (found.symm.trans stored)
      rw [settled_approvals,← carried.thresholdIs]
      exact (settled_executed s (by simpa using pending)).mp executed

theorem proposed_stored {s' : Storage} {key : Symbol} {value : String} {id : Nat} {events : List Event}
    (proposed : step s ⟨[proposer],.propose_config proposer key value⟩ = (.ok (.id id,events),s')) :
    get_proposal s' id = some (settled s ⟨key,value,[proposer],false⟩) := by
  have opened := opens_next (s := s) ⟨⟨proposer,key,value,rfl⟩,events,congrArg Prod.fst proposed⟩
  rcases step_cases s ⟨[proposer],.propose_config proposer key value⟩ with ⟨fault,failed⟩ | ⟨answer,_,_,effect⟩
  · rw [failed] at proposed
    cases proposed
  rw [proposed] at effect
  rw [opened.1]
  cases effect with
  | propose_config => exact saved_proposal _ _ _

theorem carried_propose (ok : ProposalsOk s) (member : proposer ∈ get_signers s) {key : Symbol} {value : String} {id : Nat}
    {events : List Event} {s' : Storage}
    (proposed : step s ⟨[proposer],.propose_config proposer key value⟩ = (.ok (.id id,events),s')) :
    Carried (get_signers s) (get_threshold s) id s' := by
  have stored := proposed_stored proposed
  have okAfter := proposalsOk_step s ⟨[proposer],.propose_config proposer key value⟩ ok
  have same : get_signers s' = get_signers s ∧ get_threshold s' = get_threshold s := by
    rcases step_cases s ⟨[proposer],.propose_config proposer key value⟩ with ⟨fault,failed⟩ | ⟨answer,_,_,effect⟩
    · rw [failed] at proposed
      cases proposed
    · rw [proposed] at effect
      rcases effect_signers effect with same | ⟨_,_,_,called,_⟩
      · exact same
      · cases called
  rw [proposed] at okAfter
  constructor
  · exact okAfter
  · exact same.1
  · exact same.2
  · intro p found account listed
    obtain rfl := Option.some.inj (stored.symm.trans found)
    rw [settled_approvals,List.mem_singleton] at listed
    exact listed ▸ member
  · intro p found executed
    obtain rfl := Option.some.inj (stored.symm.trans found)
    rw [settled_approvals]
    exact (settled_executed s rfl).mp executed

private theorem length_le_distinct {accounts : List Address} (distinct : accounts.Nodup)
    (members : ∀ account ∈ accounts, account ∈ signers) : accounts.length ≤ signers.dedup.length := by
  have sub : accounts ⊆ signers.dedup := fun account listed => List.mem_dedup.mpr (members account listed)
  exact (distinct.subperm sub).length_le

theorem executable_iff (ok : ProposalsOk s) (some_ : get_signers s ≠ []) (positive : 0 < get_threshold s)
    (room : next_proposal s < u32_max) : Executable s ↔ get_threshold s ≤ (get_signers s).dedup.length := by
  constructor
  · intro executable
    obtain ⟨proposer,member⟩ := List.exists_mem_of_ne_nil _ some_
    obtain ⟨events,proposed⟩ := propose_step member room "KEY" "value"
    obtain ⟨approvers,_,_,p,found,executed⟩ := executable proposer member _ _ _ _ _ proposed
    have keeps : ∀ s', ∀ invocation ∈ approvers.map (approval (next_proposal s)),
        Carried (get_signers s) (get_threshold s) (next_proposal s) s' →
          Carried (get_signers s) (get_threshold s) (next_proposal s) (step s' invocation).2 := by
      intro s' invocation listed carried
      obtain ⟨account,_,rfl⟩ := List.mem_map.mp listed
      exact carried_approval carried
    have carried := run_inv_of_mem keeps (carried_propose ok member proposed)
    calc get_threshold s ≤ p.approvals.length := carried.enough p found executed
      _ ≤ (get_signers s).dedup.length := length_le_distinct (carried.ok.distinct _ p found) (carried.members p found)
  · intro enough proposer member key value id events s' proposed
    have carried := carried_propose ok member proposed
    have stored := proposed_stored proposed
    -- The other distinct signers, as many as the threshold still asks for.
    let others := (get_signers s).dedup.erase proposer
    have othersNodup : others.Nodup := (List.nodup_dedup _).erase _
    have othersLength : others.length = (get_signers s).dedup.length - 1 :=
      List.length_erase_of_mem (List.mem_dedup.mpr member)
    have distinct : (proposer :: others.take (get_threshold s - 1)).Nodup := by
      refine List.nodup_cons.mpr ⟨?_,othersNodup.sublist (List.take_sublist _ _)⟩
      intro listed
      exact (List.nodup_dedup _).not_mem_erase (List.mem_of_mem_take listed)
    refine ⟨others.take (get_threshold s - 1),?_,?_,?_⟩
    · exact distinct
    · intro account listed
      exact List.mem_dedup.mp (List.mem_of_mem_erase (List.mem_of_mem_take listed))
    · have taken : (others.take (get_threshold s - 1)).length = get_threshold s - 1 := by
        rw [List.length_take,othersLength]
        omega
      by_cases single : get_threshold s ≤ 1
      · have none : others.take (get_threshold s - 1) = [] := List.length_eq_zero_iff.mp (by omega)
        rw [none]
        exact ⟨_,stored,(settled_executed s rfl).mpr (by simpa using single)⟩
      · apply approvals_execute _ stored
        · rw [← Bool.not_eq_true,settled_executed s rfl]
          simpa using single
        · intro none
          rw [none,List.length_nil] at taken
          omega
        · rw [settled_approvals]
          exact distinct
        · intro account listed
          rw [carried.signersAre]
          exact List.mem_dedup.mp (List.mem_of_mem_erase (List.mem_of_mem_take listed))
        · rw [settled_approvals,taken,carried.thresholdIs,List.length_singleton]
          omega

theorem set_signers_accepted {auths : List Address} {admin : Address} {threshold : Nat} {result : Answer × List Event}
    (accepted : (step s ⟨auths,.set_signers admin signers threshold⟩).1 = .ok result) :
    0 < threshold ∧ threshold ≤ signers.length := by
  rcases step_cases s ⟨auths,.set_signers admin signers threshold⟩ with ⟨fault,failed⟩ | ⟨answer,_,_,effect⟩
  · rw [failed] at accepted
    cases accepted
  · generalize (step s ⟨auths,.set_signers admin signers threshold⟩).2 = s' at effect
    cases effect with
    | set_signers _ _ positive enough => exact ⟨Nat.pos_of_ne_zero positive,enough⟩

/-- After an accepted `set_signers`, as long as its signers and threshold are in force, the proposals of the signers can be executed
    exactly when the list repeats no more entries than it is longer than the threshold. -/
theorem quorum_reachable_iff (calls : List Invocation) (auths : List Address) (admin : Address)
    (signers : List Address) (threshold : Nat) (result : Answer × List Event)
    (accepted : (step (run step Storage.empty calls) ⟨auths,.set_signers admin signers threshold⟩).1 = .ok result) :
    (threshold ≤ signers.dedup.length ↔ repeats signers ≤ signers.length - threshold) ∧
    ∀ later s, s = run step Storage.empty (calls ++ ⟨auths,.set_signers admin signers threshold⟩ :: later) →
      get_signers s = signers → get_threshold s = threshold → next_proposal s < u32_max →
        (Executable s ↔ repeats signers ≤ signers.length - threshold) := by
  obtain ⟨positive,enough⟩ := set_signers_accepted accepted
  have counted : threshold ≤ signers.dedup.length ↔ repeats signers ≤ signers.length - threshold := by
    have shorter : signers.dedup.length ≤ signers.length := (List.dedup_sublist signers).length_le
    unfold repeats
    omega
  refine ⟨counted,?_⟩
  intro later s sIs signersAre thresholdIs room
  have ok : ProposalsOk s := sIs ▸ proposalsOk_run _
  have some_ : get_signers s ≠ [] := by
    rw [signersAre]
    rintro rfl
    rw [List.length_nil] at enough
    omega
  rw [executable_iff ok some_ (by omega) room,signersAre,thresholdIs,counted]

/-- With two distinct signers and a threshold of 2, proposals can be executed. -/
theorem distinct_signers_execute :
    Executable (run step Storage.empty
      [⟨["admin"],.initialize_contract "admin"⟩,⟨["admin"],.set_signers "admin" ["s1","s2","s2"] 2⟩]) :=
  ((quorum_reachable_iff [⟨["admin"],.initialize_contract "admin"⟩] ["admin"] "admin" ["s1","s2","s2"] 2 (.unit,[])
    (by decide)).2 [] _ rfl (by decide) (by decide) (by decide)).mpr (by decide)

/-- `set_signers` accepts one account listed twice with a threshold of 2, and then no proposal can be executed. -/
theorem repeated_signer_locks :
    (step (run step Storage.empty [⟨["admin"],.initialize_contract "admin"⟩])
      ⟨["admin"],.set_signers "admin" ["s1","s1"] 2⟩).1 = .ok (.unit,[]) ∧
    ¬ 2 ≤ ["s1","s1"].dedup.length ∧
    ¬ Executable (run step Storage.empty
      [⟨["admin"],.initialize_contract "admin"⟩,⟨["admin"],.set_signers "admin" ["s1","s1"] 2⟩]) := by
  refine ⟨by decide,by decide,?_⟩
  rw [executable_iff (proposalsOk_run _) (by decide) (by decide) (by decide)]
  decide

end StellarAlerts.AlertRegistry
