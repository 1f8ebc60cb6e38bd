import StellarAlerts.RegistryProposals

/-!
Who can change what in the registry: the entries that say who governs the contract
change only with the admin's authorisation or at the one initialisation, and the calls
of users touch no governance entry (`authority_frame`).
-/
namespace StellarAlerts.AlertRegistry
open Histories

/-- The entries that say who governs: admin, signers, threshold and role grants. -/
def StorageKey.Authority : StorageKey → Prop
  | .admin => True
  | .data .Signers => True
  | .data .Threshold => True
  | .data (.Role _ _) => True
  | _ => False

/-- The entries of governance: those of the authority, the configuration and the proposals with their counter. -/
def StorageKey.Governance : StorageKey → Prop
  | .admin => True
  | .config _ => True
  | .data _ => True
  | _ => False

/-- The listener, wallet and subscription calls. -/
def Call.OfUser : Call → Prop
  | .register_listener _ _ _ => True
  | .register_wallet _ _ => True
  | .subscribe _ _ => True
  | .unsubscribe _ _ _ => True
  | _ => False

/-- A successful initialisation. -/
def Initializes (t : Step) : Prop :=
  (∃ admin, t.input.call = .initialize_contract admin) ∧ ∃ result, t.answer = .ok result

variable {s s' : Storage} {auths : List Address} {call : Call}

theorem effect_authority {answer : Answer} (effect : Effect s auths call answer s') {key : StorageKey}
    (authority : key.Authority) (changed : s' key ≠ s key) :
    (∃ admin, get_admin s = some admin ∧ admin ∈ auths) ∨
      (get_admin s = none ∧ ∃ admin, call = .initialize_contract admin ∧ admin ∈ auths) := by
  have touched : key ∈ call.writes s := by
    by_contra outside
    exact changed (effect_frame effect outside)
  cases effect with
  | initialize_contract unset auth => exact .inr ⟨unset,_,rfl,auth⟩
  | set_admin auth current => exact .inl ⟨_,current,auth⟩
  | grant_role auth current => exact .inl ⟨_,current,auth⟩
  | revoke_role auth current => exact .inl ⟨_,current,auth⟩
  | set_signers auth current => exact .inl ⟨_,current,auth⟩
  | propose_config =>
    simp only [Call.writes,List.mem_cons,List.not_mem_nil,or_false] at touched
    rcases touched with rfl | rfl | rfl <;> exact False.elim authority
  | approve_proposal _ _ found =>
    simp only [Call.writes,found,Option.map_some,Option.toList_some,List.mem_cons,List.not_mem_nil,or_false] at touched
    rcases touched with rfl | rfl <;> exact False.elim authority
  | _ =>
    simp only [Call.writes,List.mem_cons,List.not_mem_nil,or_false] at touched
    subst touched
    exact False.elim authority

theorem effect_admin {answer : Answer} (effect : Effect s auths call answer s') (set : (get_admin s).isSome) :
    (get_admin s').isSome := by
  by_cases touched : .admin ∈ call.writes s
  · cases effect with
    | initialize_contract => rw [get_admin,set_self]; rfl
    | set_admin => rw [get_admin,set_self]; rfl
    | approve_proposal _ _ found => simp [Call.writes,found] at touched
    | _ => simp [Call.writes] at touched
  · rw [get_admin,effect_frame effect touched]
    exact set

/-- The configuration changes by a permitted direct update in single-admin
    mode, or when a proposal that has reached the threshold executes. -/
theorem effect_config {answer : Answer} (ok : ProposalsOk s) (effect : Effect s auths call answer s') {key : Symbol}
    (changed : get_config s' key ≠ get_config s key) :
    (∃ caller value, call = .update_config caller key value ∧ caller ∈ auths ∧
      (get_admin s = some caller ∨ has_role s caller .ConfigManager = true) ∧ get_threshold s ≤ 1) ∨
    (∃ id p, ¬ Executed s id ∧ get_proposal s' id = some p ∧ p.executed = true ∧ p.key = key ∧
      get_threshold s ≤ p.approvals.length ∧
      (1 < get_threshold s → ∃ signer, call = .approve_proposal signer id ∧
        ∃ other ∈ approvals s id, other ≠ signer)) := by
  have touched : .config key ∈ call.writes s := by
    by_contra outside
    exact changed (effect_frame effect outside)
  cases effect with
  | update_config auth found permitted single =>
    rename_i caller current parameter value
    obtain rfl : key = parameter := by simpa [Call.writes] using touched
    refine .inl ⟨caller,value,rfl,auth,?_,single⟩
    rcases permitted with rfl | role
    · exact .inl found
    · exact .inr role
  | propose_config auth signer room =>
    rename_i proposer parameter value
    obtain rfl : key = parameter := by simpa [Call.writes] using touched
    have reached : get_threshold s ≤ 1 := by
      rcases saved_config (s.set (.data .NextProposal) (next_proposal s + 1 : Nat)) (next_proposal s)
        ⟨key,value,[proposer],false⟩ key with same | reached
      · exact absurd (same.trans (set_other _ _ (by simp))) changed
      · simpa [get_threshold,set_other] using reached
    refine .inr ⟨next_proposal s,_,?_,saved_proposal _ _ _,?_,by simp,by simpa using reached,by omega⟩
    · rintro ⟨p,found,_⟩
      have := ok.below _ p found
      omega
    · rw [settled_executed _ rfl]
      simpa [get_threshold,set_other] using reached
  | approve_proposal auth member found pending first =>
    rename_i signer id p
    obtain rfl : key = p.key := by simpa [Call.writes,found] using touched
    have reached : get_threshold s ≤ p.approvals.length + 1 := by
      rcases saved_config s id { p with approvals := p.approvals ++ [signer] } p.key with same | reached
      · exact absurd same changed
      · simpa using reached
    refine .inr ⟨id,_,?_,saved_proposal s id _,?_,by simp,by simpa using reached,?_⟩
    · rintro ⟨q,foundQ,executed⟩
      obtain rfl := Option.some.inj (found.symm.trans foundQ)
      rw [pending] at executed
      cases executed
    · exact (settled_executed s (by simpa using pending)).mpr (by simpa using reached)
    · intro many
      rw [approvals_of_found found]
      obtain ⟨other,listed⟩ := List.exists_mem_of_length_pos (l := p.approvals) (by omega)
      exact ⟨signer,rfl,other,listed,fun same => first (same ▸ listed)⟩
  | _ => simp [Call.writes] at touched

theorem effect_user {answer : Answer} (effect : Effect s auths call answer s') (user : call.OfUser) {key : StorageKey}
    (governance : key.Governance) : s' key = s key := by
  apply effect_frame effect
  cases call <;> first | exact False.elim user | skip
  all_goals
    simp only [Call.writes,List.mem_cons,List.not_mem_nil,or_false]
    rintro rfl
    exact governance

theorem initializes_admin {invocation : Invocation} (initializes : Initializes (transition step s invocation)) :
    get_admin s = none ∧ (get_admin (step s invocation).2).isSome := by
  obtain ⟨⟨admin,called⟩,result,answered⟩ := initializes
  change invocation.call = _ at called
  change (step s invocation).1 = _ at answered
  rcases step_cases s invocation with ⟨fault,failed⟩ | ⟨answer,events,_,effect⟩
  · rw [failed] at answered
    cases answered
  · rw [called] at effect
    generalize (step s invocation).2 = s' at effect ⊢
    cases effect with
    | initialize_contract unset => exact ⟨unset,by rw [get_admin,set_self]; rfl⟩

theorem admin_step (s : Storage) (invocation : Invocation) (set : (get_admin s).isSome) :
    (get_admin (step s invocation).2).isSome := by
  rcases step_cases s invocation with ⟨fault,failed⟩ | ⟨answer,events,_,effect⟩
  · rw [failed]; exact set
  · exact effect_admin effect set

/-- In every reachable state, an invocation changes who governs only with the admin's authorisation or at the one initialisation,
    changes the configuration only by a permitted update in single-admin mode or by executing a proposal, which with a threshold above 1
    takes the earlier approval of another account, and changes no governance entry by a listener, wallet or subscription call. -/
theorem authority_frame (invocations : List Invocation) :
    (history step Storage.empty invocations).Pairwise (fun t u => Initializes t → ¬ Initializes u) ∧
    ∀ t ∈ history step Storage.empty invocations,
      (∀ key : StorageKey, key.Authority → t.after key ≠ t.before key →
        (∃ admin, get_admin t.before = some admin ∧ admin ∈ t.input.auths) ∨
        (Initializes t ∧ ∃ admin, t.input.call = .initialize_contract admin ∧ admin ∈ t.input.auths)) ∧
      (∀ key, get_config t.after key ≠ get_config t.before key →
        (∃ caller value, t.input.call = .update_config caller key value ∧ caller ∈ t.input.auths ∧
          (get_admin t.before = some caller ∨ has_role t.before caller .ConfigManager = true) ∧
          get_threshold t.before ≤ 1) ∨
        (∃ id p, Executes t id ∧ get_proposal t.after id = some p ∧ p.key = key ∧
          get_threshold t.before ≤ p.approvals.length)) ∧
      (1 < get_threshold t.before → ∀ key, get_config t.after key ≠ get_config t.before key →
        ∃ signer id, t.input.call = .approve_proposal signer id ∧ ∃ other ∈ approvals t.before id, other ≠ signer) ∧
      (t.input.call.OfUser → ∀ key : StorageKey, key.Governance → t.after key = t.before key) := by
  refine ⟨?_,?_⟩
  · have later : (history step Storage.empty invocations).Pairwise
        (fun t u => (get_admin t.after).isSome → (get_admin u.before).isSome) :=
      history_pairwise (I := fun _ => True) (R := fun s s' => (get_admin s).isSome → (get_admin s').isSome)
        (fun _ set => set) (fun first second set => second (first set)) (fun _ _ _ => trivial)
        (fun s i _ => admin_step s i) trivial invocations
    refine List.pairwise_iff_forall_sublist.mpr ?_
    intro t u both first second
    have stays := List.pairwise_iff_forall_sublist.mp later both
    obtain ⟨before,invocation,rfl⟩ := mem_history (both.subset (List.mem_cons_self ..))
    obtain ⟨before',invocation',rfl⟩ := mem_history (both.subset (List.mem_cons_of_mem _ (List.mem_cons_self ..)))
    have unset := (initializes_admin second).1
    have set := stays (initializes_admin first).2
    simp only [transition] at set
    rw [unset] at set
    cases set
  · intro t member
    obtain ⟨before,invocation,rfl⟩ := mem_history member
    have ok := proposalsOk_run before
    generalize run step Storage.empty before = s at ok
    simp only [transition]
    rcases step_cases s invocation with ⟨fault,failed⟩ | ⟨answer,events,answered,effect⟩
    · rw [failed]
      exact ⟨fun _ _ changed => absurd rfl changed,fun _ changed => absurd rfl changed,
        fun _ _ changed => absurd rfl changed,fun _ _ _ => rfl⟩
    refine ⟨?_,?_,?_,fun user key governance => effect_user effect user governance⟩
    · intro key authority changed
      rcases effect_authority effect authority changed with admin | ⟨_,admin,called,auth⟩
      · exact .inl admin
      · exact .inr ⟨⟨⟨admin,called⟩,_,answered⟩,admin,called,auth⟩
    · intro key changed
      rcases effect_config ok effect changed with direct | ⟨id,p,pending,found,executed,keyIs,reached,_⟩
      · exact .inl direct
      · exact .inr ⟨id,p,⟨pending,p,found,executed⟩,found,keyIs,reached⟩
    · intro many key changed
      rcases effect_config ok effect changed with ⟨_,_,_,_,_,single⟩ | ⟨id,_,_,_,_,_,_,other⟩
      · omega
      · obtain ⟨signer,called,another⟩ := other many
        exact ⟨signer,id,called,another⟩

end StellarAlerts.AlertRegistry
