import StellarAlerts.RegistryEffects
import Mathlib.Data.List.Dedup

/-!
The life of a proposal. In every run from the deployment an execution rests on enough
distinct approvals of addresses that were signers when they approved, and there is one
at most (`proposals_safe`). It can rest on approvals of addresses that are signers no
more (`stale_approval_executes`), but not in runs where no approver of a pending
proposal loses its place (`executions_by_signers`).
-/
namespace StellarAlerts.AlertRegistry
open Histories

variable {s s' : Storage} {auths : List Address} {call : Call}

/-- The calls leave a proposal alone, open it or add one approval to it. -/
theorem effect_proposal {answer : Answer} (effect : Effect s auths call answer s') (id : Nat) :
    get_proposal s' id = get_proposal s id ∨
    (∃ proposer key value, call = .propose_config proposer key value ∧ answer = .id id ∧ id = next_proposal s ∧
      proposer ∈ auths ∧ proposer ∈ get_signers s ∧
      get_proposal s' id = some (settled s ⟨key,value,[proposer],false⟩)) ∨
    (∃ signer p, call = .approve_proposal signer id ∧ signer ∈ auths ∧ signer ∈ get_signers s ∧
      get_proposal s id = some p ∧ p.executed = false ∧ signer ∉ p.approvals ∧
      get_proposal s' id = some (settled s { p with approvals := p.approvals ++ [signer] })) := by
  by_cases touched : .data (.Proposal id) ∈ call.writes s
  · cases effect with
    | propose_config auth signer =>
      rename_i proposer key value _
      have same : id = next_proposal s := by simpa [Call.writes] using touched
      refine .inr (.inl ⟨proposer,key,value,rfl,by rw [same],same,auth,signer,?_⟩)
      rw [same,saved_proposal]
      rfl
    | approve_proposal auth member found pending first =>
      rename_i signer other p
      have same : id = other := by simpa [Call.writes,found] using touched
      subst same
      exact .inr (.inr ⟨signer,p,rfl,auth,member,found,pending,first,saved_proposal s id _⟩)
    | _ => simp [Call.writes] at touched
  · exact .inl (effect_frame effect touched)

theorem effect_next {answer : Answer} (effect : Effect s auths call answer s') :
    (next_proposal s' = next_proposal s ∧ ∀ id, answer ≠ .id id) ∨
    (next_proposal s' = next_proposal s + 1 ∧ answer = .id (next_proposal s)) := by
  by_cases touched : .data .NextProposal ∈ call.writes s
  · cases effect with
    | propose_config =>
      refine .inr ⟨?_,rfl⟩
      show (saved _ _ _ (.data .NextProposal)).getD 0 = _
      rw [saved_other _ (by simp) (by simp),set_self]
      rfl
    | approve_proposal _ _ found => simp [Call.writes,found] at touched
    | _ => simp [Call.writes] at touched
  · refine .inl ⟨by rw [next_proposal,effect_frame effect touched,next_proposal],?_⟩
    cases effect with
    | propose_config => simp [Call.writes] at touched
    | _ => simp

/-- The signers and the threshold change only in a `set_signers` call of the admin, to what it gives. -/
theorem effect_signers {answer : Answer} (effect : Effect s auths call answer s') :
    (get_signers s' = get_signers s ∧ get_threshold s' = get_threshold s) ∨
    (∃ admin signers threshold, call = .set_signers admin signers threshold ∧ admin ∈ auths ∧
      get_admin s = some admin ∧ threshold ≠ 0 ∧ threshold ≤ signers.length ∧
      get_signers s' = signers ∧ get_threshold s' = threshold) := by
  by_cases touched : .data .Signers ∈ call.writes s ∨ .data .Threshold ∈ call.writes s
  · cases effect with
    | set_signers auth current positive enough =>
      rename_i admin signers threshold
      refine .inr ⟨admin,signers,threshold,rfl,auth,current,positive,enough,?_,?_⟩
      · rw [get_signers,set_other _ _ (by simp),set_self]
        rfl
      · rw [get_threshold,set_self]
        rfl
    | approve_proposal _ _ found => simp [Call.writes,found] at touched
    | _ => simp [Call.writes] at touched
  · rw [not_or] at touched
    exact .inl ⟨by rw [get_signers,effect_frame effect touched.1,get_signers],
      by rw [get_threshold,effect_frame effect touched.2,get_threshold]⟩

/-- The approvals of a proposal; none when there is no such proposal. -/
def approvals (s : Storage) (id : Nat) : List Address := ((get_proposal s id).map ConfigProposal.approvals).getD []

/-- The proposal's `executed` flag is set. -/
def Executed (s : Storage) (id : Nat) : Prop := ∃ p, get_proposal s id = some p ∧ p.executed = true

/-- The proposal's `executed` flag becomes true. -/
def Executes (t : Step) (id : Nat) : Prop := ¬ Executed t.before id ∧ Executed t.after id

/-- A signer's authorised approval is recorded. -/
def Approves (t : Step) (id : Nat) (account : Address) : Prop :=
  account ∈ t.input.auths ∧ account ∈ get_signers t.before ∧ account ∉ approvals t.before id ∧
    account ∈ approvals t.after id

/-- `propose_config` hands out the id. -/
def Opens (t : Step) (id : Nat) : Prop :=
  (∃ proposer key value, t.input.call = .propose_config proposer key value) ∧
    ∃ events, t.answer = .ok (.id id,events)

/-- Every proposal has an id that was handed out and distinct approvals. -/
structure ProposalsOk (s : Storage) : Prop where
  below : ∀ id p, get_proposal s id = some p → id < next_proposal s
  distinct : ∀ id p, get_proposal s id = some p → p.approvals.Nodup

/-- Every proposal is still there with the approvals it had, and is the same as before when it was executed. -/
def Kept (s s' : Storage) : Prop :=
  ∀ id p, get_proposal s id = some p → ∃ q, get_proposal s' id = some q ∧ q.key = p.key ∧ q.value = p.value ∧
    p.approvals <+: q.approvals ∧ (p.executed = true → q = p)

theorem kept_refl (s : Storage) : Kept s s :=
  fun _ p found => ⟨p,found,rfl,rfl,List.prefix_refl _,fun _ => rfl⟩

theorem kept_trans {a b c : Storage} (first : Kept a b) (second : Kept b c) : Kept a c := by
  intro id p found
  obtain ⟨q,foundQ,keyQ,valueQ,prefixQ,sameQ⟩ := first id p found
  obtain ⟨r,foundR,keyR,valueR,prefixR,sameR⟩ := second id q foundQ
  refine ⟨r,foundR,keyR.trans keyQ,valueR.trans valueQ,prefixQ.trans prefixR,?_⟩
  intro executed
  have qIs := sameQ executed
  rw [sameR (by rw [qIs]; exact executed),qIs]

theorem kept_executed (kept : Kept s s') {id : Nat} (executed : Executed s id) : Executed s' id := by
  obtain ⟨p,found,flag⟩ := executed
  obtain ⟨q,foundQ,_,_,_,same⟩ := kept id p found
  exact ⟨q,foundQ,by rw [same flag]; exact flag⟩

theorem proposalsOk_empty : ProposalsOk Storage.empty := by
  constructor
  · intro id p found; cases found
  · intro id p found; cases found

theorem approvals_of_found {id : Nat} {p : ConfigProposal} (found : get_proposal s id = some p) :
    approvals s id = p.approvals := by
  simp [approvals,found]

theorem proposalsOk_step (s : Storage) (invocation : Invocation) (ok : ProposalsOk s) :
    ProposalsOk (step s invocation).2 := by
  rcases step_cases s invocation with ⟨fault,failed⟩ | ⟨answer,events,_,effect⟩
  · rw [failed]; exact ok
  have counter : next_proposal s ≤ next_proposal (step s invocation).2 := by
    rcases effect_next effect with ⟨same,_⟩ | ⟨more,_⟩ <;> omega
  constructor
  · intro id p found
    rcases effect_proposal effect id with same | ⟨_,_,_,_,answered,idIs,_⟩ | ⟨_,q,_,_,_,foundQ,_⟩
    · have := ok.below id p (same ▸ found)
      omega
    · rcases effect_next effect with ⟨_,none⟩ | ⟨more,_⟩
      · exact absurd answered (none id)
      · omega
    · have := ok.below id q foundQ
      omega
  · intro id p found
    rcases effect_proposal effect id with same | ⟨_,_,_,_,_,_,_,_,stored⟩ | ⟨_,q,_,_,_,foundQ,_,first,stored⟩
    · exact ok.distinct id p (same ▸ found)
    · rw [found] at stored
      obtain rfl := Option.some.inj stored
      simp
    · rw [found] at stored
      obtain rfl := Option.some.inj stored
      rw [settled_approvals]
      exact (ok.distinct id q foundQ).append (List.nodup_singleton _) (by simpa using first)

theorem kept_step (s : Storage) (invocation : Invocation) (ok : ProposalsOk s) : Kept s (step s invocation).2 := by
  rcases step_cases s invocation with ⟨fault,failed⟩ | ⟨answer,events,_,effect⟩
  · rw [failed]; exact kept_refl s
  intro id p found
  rcases effect_proposal effect id with same | ⟨_,_,_,_,_,rfl,_⟩ | ⟨signer,q,_,_,_,foundQ,pending,_,stored⟩
  · exact ⟨p,by rw [same,found],rfl,rfl,List.prefix_refl _,fun _ => rfl⟩
  · have := ok.below _ p found
    omega
  · obtain rfl := Option.some.inj (found.symm.trans foundQ)
    refine ⟨_,stored,settled_key _ _,settled_value _ _,?_,?_⟩
    · rw [settled_approvals]
      exact List.prefix_append _ _
    · intro executed
      rw [pending] at executed
      cases executed

theorem approves_step (s : Storage) (invocation : Invocation) {id : Nat} {account : Address}
    (after : account ∈ approvals (step s invocation).2 id) (before : account ∉ approvals s id) :
    Approves (transition step s invocation) id account := by
  rcases step_cases s invocation with ⟨fault,failed⟩ | ⟨answer,events,_,effect⟩
  · rw [failed] at after
    exact absurd after before
  suffices authorised : account ∈ invocation.auths ∧ account ∈ get_signers s from
    ⟨authorised.1,authorised.2,before,after⟩
  rcases effect_proposal effect id with same | ⟨_,_,_,_,_,_,auth,member,stored⟩ |
    ⟨signer,p,_,auth,member,found,_,_,stored⟩
  · rw [approvals,same] at after
    exact absurd after before
  · rw [approvals_of_found stored,settled_approvals,List.mem_singleton] at after
    exact after ▸ ⟨auth,member⟩
  · rw [approvals_of_found found] at before
    rw [approvals_of_found stored,settled_approvals,List.mem_append,List.mem_singleton] at after
    rcases after with old | new
    · exact absurd old before
    · exact new ▸ ⟨auth,member⟩

theorem executes_step (s : Storage) (invocation : Invocation) {id : Nat}
    (executes : Executes (transition step s invocation) id) :
    ∃ p, get_proposal (step s invocation).2 id = some p ∧ get_threshold s ≤ p.approvals.length := by
  obtain ⟨open_,p,found,executed⟩ := executes
  change get_proposal (step s invocation).2 id = some p at found
  refine ⟨p,found,?_⟩
  rcases step_cases s invocation with ⟨fault,failed⟩ | ⟨answer,events,_,effect⟩
  · rw [failed] at found
    exact absurd ⟨p,found,executed⟩ open_
  rcases effect_proposal effect id with same | ⟨_,_,_,_,_,_,_,_,stored⟩ | ⟨_,q,_,_,_,_,pending,_,stored⟩
  · exact absurd ⟨p,same ▸ found,executed⟩ open_
  · obtain rfl := Option.some.inj (found.symm.trans stored)
    rw [settled_approvals]
    exact (settled_executed s rfl).mp executed
  · obtain rfl := Option.some.inj (found.symm.trans stored)
    rw [settled_approvals]
    exact (settled_executed s (by simpa using pending)).mp executed

theorem approvals_recorded (invocations : List Invocation) :
    ∀ id, ∀ account ∈ approvals (run step Storage.empty invocations) id,
      ∃ u ∈ history step Storage.empty invocations, Approves u id account := by
  apply history_rec (P := fun past s => ∀ id, ∀ account ∈ approvals s id, ∃ u ∈ past, Approves u id account)
  · intro id account member
    simp [approvals,get_proposal,Storage.empty] at member
  · intro past s invocation recorded id account member
    by_cases before : account ∈ approvals s id
    · obtain ⟨u,listed,approves⟩ := recorded id account before
      exact ⟨u,List.mem_append_left _ listed,approves⟩
    · exact ⟨_,List.mem_append_right _ (List.mem_singleton_self _),approves_step s invocation member before⟩

theorem proposalsOk_run (invocations : List Invocation) : ProposalsOk (run step Storage.empty invocations) :=
  run_inv proposalsOk_step proposalsOk_empty invocations

variable {invocation : Invocation}

/-- What `propose_config` hands out is the counter, which it moves on. -/
theorem opens_next {id : Nat} (opens : Opens (transition step s invocation) id) :
    id = next_proposal s ∧ next_proposal (step s invocation).2 = next_proposal s + 1 := by
  obtain ⟨_,events,answered⟩ := opens
  change (step s invocation).1 = _ at answered
  rcases step_cases s invocation with ⟨fault,failed⟩ | ⟨answer,events',answered',effect⟩
  · rw [failed] at answered
    cases answered
  · have same : answer = .id id := by
      rw [answered'] at answered
      simp only [Except.ok.injEq,Prod.mk.injEq] at answered
      exact answered.1
    rcases effect_next effect with ⟨_,none⟩ | ⟨moved,answerIs⟩
    · exact absurd same (none id)
    · rw [same] at answerIs
      exact ⟨by simpa using answerIs,moved⟩

theorem next_step (s : Storage) (invocation : Invocation) : next_proposal s ≤ next_proposal (step s invocation).2 := by
  rcases step_cases s invocation with ⟨fault,failed⟩ | ⟨answer,events,_,effect⟩
  · simp [failed]
  · rcases effect_next effect with ⟨same,_⟩ | ⟨moved,_⟩ <;> omega

/-- In every run from the deployment, an execution rests on distinct approvals, at least as many as the threshold in force, each
    recorded when its account was a signer; a proposal executes once at most; proposals stay, with their approvals, and executed ones
    unchanged; and every id is new. -/
theorem proposals_safe (invocations : List Invocation) :
    (∀ earlier t later, history step Storage.empty invocations = earlier ++ t :: later → ∀ id, Executes t id →
      ∃ p, get_proposal t.after id = some p ∧ p.approvals.Nodup ∧ get_threshold t.before ≤ p.approvals.length ∧
        ∀ account ∈ p.approvals, ∃ u ∈ earlier ++ [t], Approves u id account) ∧
    (history step Storage.empty invocations).Pairwise (fun t u => ∀ id, Executes t id → ¬ Executes u id) ∧
    (∀ t ∈ history step Storage.empty invocations, Kept t.before t.after) ∧
    (history step Storage.empty invocations).Pairwise (fun t u => Kept t.after u.before) ∧
    (history step Storage.empty invocations).Pairwise (fun t u => ∀ i j, Opens t i → Opens u j → i ≠ j) ∧
    (∀ t ∈ history step Storage.empty invocations, ∀ id, Opens t id → get_proposal t.before id = none) := by
  have kept : (history step Storage.empty invocations).Pairwise (fun t u => Kept t.after u.before) :=
    history_pairwise kept_refl kept_trans proposalsOk_step kept_step proposalsOk_empty invocations
  have counted : (history step Storage.empty invocations).Pairwise
      (fun t u => next_proposal t.after ≤ next_proposal u.before) :=
    history_pairwise (R := fun s s' => next_proposal s ≤ next_proposal s') (fun _ => Nat.le_refl _)
      (fun first second => Nat.le_trans first second) proposalsOk_step (fun s i _ => next_step s i) proposalsOk_empty invocations
  refine ⟨?_,?_,?_,kept,?_,?_⟩
  · intro earlier t later split id executes
    obtain ⟨before,invocation,_,_,earlierIs,tIs,_⟩ := history_split split
    -- The run up to and with this transition.
    have ends : history step Storage.empty (before ++ [invocation]) = earlier ++ [t] := by
      rw [history_append,earlierIs,tIs]
      rfl
    have reached : run step Storage.empty (before ++ [invocation]) = t.after := by
      rw [run_append,tIs]
      rfl
    have ok := proposalsOk_run (before ++ [invocation])
    have recorded := approvals_recorded (before ++ [invocation]) id
    rw [reached] at ok recorded
    rw [ends] at recorded
    rw [tIs] at executes
    obtain ⟨p,found,enough⟩ := executes_step _ invocation executes
    have found' : get_proposal t.after id = some p := by rw [tIs]; exact found
    rw [approvals_of_found found'] at recorded
    exact ⟨p,found',ok.distinct id p found',by rw [tIs]; exact enough,recorded⟩
  · refine kept.imp ?_
    intro t u keeps id first second
    exact second.1 (kept_executed keeps first.2)
  · intro t member
    obtain ⟨before,invocation,rfl⟩ := mem_history member
    exact kept_step _ invocation (proposalsOk_run before)
  · refine (List.pairwise_iff_forall_sublist.mpr ?_)
    intro t u both i j opensT opensU
    have later := List.pairwise_iff_forall_sublist.mp counted both
    obtain ⟨before,invocation,rfl⟩ := mem_history (both.subset (List.mem_cons_self ..))
    obtain ⟨before',invocation',rfl⟩ := mem_history (both.subset (List.mem_cons_of_mem _ (List.mem_cons_self ..)))
    have := opens_next opensT
    have := opens_next opensU
    simp only [transition] at later
    omega
  · intro t member id opens
    obtain ⟨before,invocation,rfl⟩ := mem_history member
    have idIs := (opens_next opens).1
    by_contra present
    obtain ⟨p,found⟩ := Option.ne_none_iff_exists'.mp present
    have := (proposalsOk_run before).below id p found
    omega

/-- At least as many distinct approvals as the threshold come from accounts that are signers when the proposal executes. -/
def ExecutedBySigners (t : Step) (id : Nat) : Prop :=
  ∃ p, get_proposal t.after id = some p ∧
    get_threshold t.before ≤ (p.approvals.dedup.filter (· ∈ get_signers t.before)).length

/-- The invocation is a `set_signers` call that the contract accepts. -/
def Rotates (s : Storage) (invocation : Invocation) (signers : List Address) : Prop :=
  ∃ admin threshold, invocation.call = .set_signers admin signers threshold ∧ admin ∈ invocation.auths ∧
    get_admin s = some admin ∧ threshold ≠ 0 ∧ threshold ≤ signers.length

/-- No accepted `set_signers` leaves out an account that has approved a proposal still pending. -/
def KeepsApprovers (t : Step) : Prop :=
  ∀ signers, Rotates t.before t.input signers → ∀ id p, get_proposal t.before id = some p → p.executed = false →
    ∀ account ∈ p.approvals, account ∈ signers

/-- Pending proposals are approved by signers only. -/
def ApproversAreSigners (s : Storage) : Prop :=
  ∀ id p, get_proposal s id = some p → p.executed = false → ∀ account ∈ p.approvals, account ∈ get_signers s

/-- In a state where pending proposals are approved by signers only, so is every
    proposal that an invocation changes, as long as it is no rotation. -/
theorem changed_by_signers (before : ApproversAreSigners s) {id : Nat} {p : ConfigProposal}
    (found : get_proposal (step s invocation).2 id = some p)
    (changed : get_proposal (step s invocation).2 id ≠ get_proposal s id) :
    ∀ account ∈ p.approvals, account ∈ get_signers s := by
  rcases step_cases s invocation with ⟨fault,failed⟩ | ⟨answer,events,_,effect⟩
  · rw [failed] at changed
    exact absurd rfl changed
  intro account member
  rcases effect_proposal effect id with same | ⟨_,_,_,_,_,_,_,signer,stored⟩ | ⟨_,q,_,_,signer,foundQ,pending,_,stored⟩
  · exact absurd same changed
  · obtain rfl := Option.some.inj (found.symm.trans stored)
    rw [settled_approvals,List.mem_singleton] at member
    exact member ▸ signer
  · obtain rfl := Option.some.inj (found.symm.trans stored)
    rw [settled_approvals,List.mem_append,List.mem_singleton] at member
    rcases member with old | new
    · exact before id q foundQ pending account old
    · exact new ▸ signer

theorem approversAreSigners_step (s : Storage) (invocation : Invocation) (before : ApproversAreSigners s)
    (keeps : KeepsApprovers (transition step s invocation)) : ApproversAreSigners (step s invocation).2 := by
  intro id p found pending account member
  rcases step_cases s invocation with ⟨fault,failed⟩ | ⟨answer,events,_,effect⟩
  · rw [failed] at found ⊢
    exact before id p found pending account member
  rcases effect_signers effect with ⟨same,_⟩ | ⟨admin,signers,threshold,called,auth,current,positive,enough,now,_⟩
  · rw [same]
    by_cases changed : get_proposal (step s invocation).2 id = get_proposal s id
    · exact before id p (changed ▸ found) pending account member
    · exact changed_by_signers before found changed account member
  · rw [now]
    have old : get_proposal s id = some p := by
      rcases effect_proposal effect id with same | ⟨_,_,_,other,_⟩ | ⟨_,_,other,_⟩
      · exact same ▸ found
      · rw [called] at other; cases other
      · rw [called] at other; cases other
    exact keeps signers ⟨admin,threshold,called,auth,current,positive,enough⟩ id p old pending account member

theorem approversAreSigners_empty : ApproversAreSigners Storage.empty := by
  intro id p found
  cases found

theorem approversAreSigners_history (invocations : List Invocation) :
    (∀ t ∈ history step Storage.empty invocations, KeepsApprovers t) →
      ApproversAreSigners (run step Storage.empty invocations) ∧
        ∀ t ∈ history step Storage.empty invocations, ApproversAreSigners t.before := by
  apply history_rec (P := fun past s => (∀ t ∈ past, KeepsApprovers t) →
    ApproversAreSigners s ∧ ∀ t ∈ past, ApproversAreSigners t.before)
  · exact fun _ => ⟨approversAreSigners_empty,by simp⟩
  · intro past s invocation holds keeps
    obtain ⟨now,earlier⟩ := holds (fun t member => keeps t (List.mem_append_left _ member))
    refine ⟨approversAreSigners_step s invocation now (keeps _ (by simp)),?_⟩
    intro t member
    rcases List.mem_append.mp member with old | new
    · exact earlier t old
    · rw [List.mem_singleton.mp new]; exact now

theorem executes_changed {id : Nat} (executes : Executes (transition step s invocation) id) :
    get_proposal (step s invocation).2 id ≠ get_proposal s id := by
  intro same
  obtain ⟨pending,p,found,executed⟩ := executes
  exact pending ⟨p,same ▸ found,executed⟩

/-- In every run that never takes an approver of a pending proposal off the
    signer list, every execution is carried by present signers. -/
theorem executions_by_signers (invocations : List Invocation)
    (keeps : ∀ t ∈ history step Storage.empty invocations, KeepsApprovers t) :
    ∀ t ∈ history step Storage.empty invocations, ∀ id, Executes t id → ExecutedBySigners t id := by
  intro t member id executes
  have before := (approversAreSigners_history invocations keeps).2 t member
  obtain ⟨calls,invocation,rfl⟩ := mem_history member
  obtain ⟨p,found,enough⟩ := executes_step _ invocation executes
  refine ⟨p,found,?_⟩
  have distinct : p.approvals.Nodup :=
    (proposalsOk_step _ invocation (proposalsOk_run calls)).distinct id p found
  have signers := changed_by_signers before found (executes_changed executes)
  rw [List.dedup_eq_self.mpr distinct,List.filter_eq_self.mpr (fun account listed => by simpa using signers account listed)]
  exact enough

def keepingRotation : List Invocation :=
  [⟨["admin"],.initialize_contract "admin"⟩,⟨["admin"],.set_signers "admin" ["s1","s2"] 2⟩,
    ⟨["s1"],.propose_config "s1" "FEE" "5"⟩,⟨["admin"],.set_signers "admin" ["s1","s3"] 2⟩,
    ⟨["s3"],.approve_proposal "s3" 0⟩]

/-- Such a rotation leaves the execution to present signers. -/
theorem keeping_rotation_by_signers :
    Executed (run step Storage.empty keepingRotation) 0 ∧
      ∀ t ∈ history step Storage.empty keepingRotation, ∀ id, Executes t id → ExecutedBySigners t id := by
  refine ⟨⟨_,rfl,rfl⟩,executions_by_signers keepingRotation ?_⟩
  intro t member
  simp only [keepingRotation,history_cons,history_nil,List.mem_cons,List.not_mem_nil,or_false] at member
  rcases member with rfl | rfl | rfl | rfl | rfl
  · rintro signers ⟨admin,threshold,called,_⟩
    cases called
  · rintro signers _ id p found
    cases found
  · rintro signers ⟨admin,threshold,called,_⟩
    cases called
  · rintro signers ⟨admin,threshold,called,_⟩ id p found _ account listed
    have below := (proposalsOk_run (keepingRotation.take 3)).below id p found
    have counter : next_proposal (run step Storage.empty (keepingRotation.take 3)) = 1 := by decide
    obtain rfl : id = 0 := by omega
    have stored : get_proposal (run step Storage.empty (keepingRotation.take 3)) 0 = some ⟨"FEE","5",["s1"],false⟩ := by
      decide
    obtain rfl := Option.some.inj (stored.symm.trans found)
    obtain rfl := List.mem_singleton.mp listed
    cases called
    decide
  · rintro signers ⟨admin,threshold,called,_⟩
    cases called

/-- A rotation between two approvals. -/
def rotation : List Invocation :=
  [⟨["admin"],.initialize_contract "admin"⟩,⟨["admin"],.set_signers "admin" ["s1","s2"] 2⟩,
    ⟨["s1"],.propose_config "s1" "FEE" "5"⟩,⟨["admin"],.set_signers "admin" ["s2","s3"] 2⟩,
    ⟨["s2"],.approve_proposal "s2" 0⟩]

/-- The approval of an account that is no signer any more counts. -/
theorem stale_approval_executes :
    ∃ t ∈ history step Storage.empty rotation, Executes t 0 ∧ ¬ ExecutedBySigners t 0 := by
  refine ⟨transition step (run step Storage.empty (rotation.take 4)) ⟨["s2"],.approve_proposal "s2" 0⟩,?_,?_,?_⟩
  · simp [rotation]
  · refine ⟨?_,_,rfl,rfl⟩
    rintro ⟨p,found,executed⟩
    have pending : get_proposal (run step Storage.empty (rotation.take 4)) 0 = some ⟨"FEE","5",["s1"],false⟩ := by
      decide
    change get_proposal (run step Storage.empty (rotation.take 4)) 0 = some p at found
    obtain rfl := Option.some.inj (found.symm.trans pending)
    cases executed
  · rintro ⟨p,found,enough⟩
    have stored : get_proposal (step (run step Storage.empty (rotation.take 4)) ⟨["s2"],.approve_proposal "s2" 0⟩).2 0 =
        some ⟨"FEE","5",["s1","s2"],true⟩ := by decide
    obtain rfl := Option.some.inj (stored.symm.trans found)
    revert enough
    decide

end StellarAlerts.AlertRegistry
