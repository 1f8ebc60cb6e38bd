import StellarAlerts.ProfileStore

/-!
Profiles and secrets in every run. A profile that is removed leaves its secrets in the vault unless
the password is given. Where it always is, the vault holds secrets only of profiles that say so, and
only such as were set since the profile was removed last (`profile_store_sound`).
-/
namespace StellarAlerts.ProfileStore
open DateTexts Histories OrderedMaps

variable {Plaintext Ciphertext : Type} {p : Platform Plaintext Ciphertext}

theorem get_flagged (profiles : OrderedMap String ProfileConfig) (name other : String) (hasSecrets : Bool) (updatedAt : String) :
    (flagged profiles name hasSecrets updatedAt).get other =
      if other = name then (profiles.get name).map fun profile => { profile with hasSecrets := some hasSecrets, updatedAt }
      else profiles.get other := by
  unfold flagged
  split
  next profile found =>
    rw [get_set]
    by_cases own : other = name
    · rw [if_pos own,if_pos own,found]
      rfl
    · rw [if_neg own,if_neg own]
  next absent =>
    by_cases own : other = name
    · rw [if_pos own,own,absent]
      rfl
    · rw [if_neg own]

variable {other : String}

theorem get_assign {α : Type} {object : OrderedMap String α} {name : String} {value found : α}
    (was : object.get other = some found) :
    (assign object name value).get other = some found ∨ (other = name ∧ (assign object name value).get other = some value) := by
  unfold assign
  split
  · exact .inl was
  · rw [get_set]
    by_cases own : other = name
    · exact .inr ⟨own,if_pos own⟩
    · rw [if_neg own]
      exact .inl was

/-- The active profile is one of the profiles. -/
def ActiveExists (w : World Ciphertext) : Prop :=
  ∀ name, w.activeProfile = some name → ∃ profile, w.profiles.get name = some profile

/-- No name that all objects inherit is made active. -/
def Call.plain : Call → Bool
  | .setActiveProfile name => name ∉ inheritedNames
  | _ => true

variable {w : World Ciphertext}

theorem active_step (exists_ : ActiveExists w) {call : Call} (plain : call.plain = true) :
    ActiveExists (step p w call).2 := by
  have moves := step_moves (p := p) w call
  generalize step p w call = moved at moves
  intro name isActive
  cases moves with
  | refused e => exact exists_ name isActive
  | time now => exact exists_ name isActive
  | created free _ bare profiles active vault =>
    simp only at isActive ⊢
    rw [active] at isActive
    rw [profiles,get_set]
    split
    · exact ⟨_,rfl⟩
    next other =>
      cases was : w.activeProfile with
      | none =>
        rw [was] at isActive
        exact absurd (Option.some.inj isActive).symm other
      | some old =>
        rw [was] at isActive
        obtain rfl := Option.some.inj isActive
        exact exists_ old was
  | activated known profiles active vault =>
    simp only at isActive ⊢
    rw [active] at isActive
    obtain rfl := Option.some.inj isActive
    rw [profiles]
    exact known (by simpa [Call.plain] using plain)
  | updated keeps profiles active vault =>
    simp only at isActive ⊢
    rw [active] at isActive
    obtain ⟨profile,found⟩ := exists_ name isActive
    rw [profiles]
    rcases get_assign found with kept | ⟨_,new⟩
    · exact ⟨_,kept⟩
    · exact ⟨_,new⟩
  | removed profiles active vault =>
    simp only at isActive ⊢
    rw [active] at isActive
    rw [profiles]
    split at isActive
    · exact mem_objectKeys.mp (List.mem_of_head? isActive)
    next other =>
      rw [get_delete,if_neg ?_]
      · exact exists_ name isActive
      · rintro rfl
        exact other isActive
  | secretSet known loaded profiles active vault =>
    simp only at isActive ⊢
    rw [active] at isActive
    obtain ⟨profile,found⟩ := exists_ name isActive
    rw [profiles,get_flagged]
    split
    next own => exact ⟨_,by rw [← own,found]; rfl⟩
    · exact ⟨profile,found⟩
  | secretDeleted known loaded profiles active vault =>
    simp only at isActive ⊢
    rw [active] at isActive
    obtain ⟨profile,found⟩ := exists_ name isActive
    rw [profiles,get_flagged]
    split
    next own => exact ⟨_,by rw [← own,found]; rfl⟩
    · exact ⟨profile,found⟩

abbrev Step (Ciphertext : Type) := Transition (World Ciphertext) Call (Except ProfileError Unit)
def Removes (name : String) (t : Step Ciphertext) : Prop :=
  (∃ vaultPassword, t.input = .removeProfile name vaultPassword) ∧ t.answer = .ok ()
def Sets (name key value : String) (t : Step Ciphertext) : Prop :=
  (∃ password, t.input = .setSecret name key value password) ∧ t.answer = .ok ()
def SetSince (past : List (Step Ciphertext)) (name key value : String) : Prop :=
  ∃ earlier t later, past = earlier ++ t :: later ∧ Sets name key value t ∧ ∀ u ∈ later, ¬ Removes name u

variable {past : List (Step Ciphertext)} {t : Step Ciphertext}

theorem setSince_append {name key value : String} (since : SetSince past name key value) (stays : ¬ Removes name t) :
    SetSince (past ++ [t]) name key value := by
  obtain ⟨earlier,u,later,rfl,sets,none⟩ := since
  refine ⟨earlier,u,later ++ [t],by simp,sets,fun v listed => ?_⟩
  rcases List.mem_append.mp listed with old | new
  · exact none v old
  · rw [List.mem_singleton.mp new]
    exact stays

/-- Names with secrets are those of profiles that say so, and secrets were set since a removal. -/
structure Recorded (past : List (Step Ciphertext)) (profiles : OrderedMap String ProfileConfig) (payload : VaultPayload) : Prop where
  plain : ∀ name secrets, payload.secrets.get name = some secrets → name ∉ inheritedNames
  flagged : ∀ name secrets, payload.secrets.get name = some secrets → secrets.keys ≠ [] →
    ∃ profile, profiles.get name = some profile ∧ profile.hasSecrets = some true
  since : ∀ name secrets key value, payload.secrets.get name = some secrets → secrets.get key = .own value →
    SetSince past name key value

theorem recorded_empty (past : List (Step Ciphertext)) (profiles : OrderedMap String ProfileConfig) :
    Recorded past profiles emptyVaultPayload := by
  refine ⟨?_,?_,?_⟩
  · rintro name secrets ⟨⟩
  · rintro name secrets ⟨⟩
  · rintro name secrets key value ⟨⟩

variable {payload : VaultPayload}

theorem recorded_stays {profiles profiles' : OrderedMap String ProfileConfig} (recorded : Recorded past profiles payload)
    (removes : ∀ name, ¬ Removes name t)
    (keeps : ∀ name profile, profiles.get name = some profile → profile.hasSecrets = some true → ∃ profile',
      profiles'.get name = some profile' ∧ profile'.hasSecrets = some true) :
    Recorded (past ++ [t]) profiles' payload := by
  refine ⟨recorded.plain,fun name secrets found some_ => ?_,fun name secrets key value found own => ?_⟩
  · obtain ⟨profile,listed,flag⟩ := recorded.flagged name secrets found some_
    exact keeps name profile listed flag
  · exact setSince_append (recorded.since name secrets key value found own) (removes name)

variable {vaultPassword : Option String}

theorem recorded_removes {profiles : OrderedMap String ProfileConfig} {payload' : VaultPayload}
    (recorded : Recorded past profiles payload) {name : String} (isRemove : t.input = .removeProfile name vaultPassword)
    (part : ∀ other secrets, payload'.secrets.get other = some secrets → payload.secrets.get other = some secrets)
    (bare : ∀ secrets, payload'.secrets.get name = some secrets → secrets.keys = []) :
    Recorded (past ++ [t]) (profiles.delete name) payload' := by
  refine ⟨fun other secrets found => recorded.plain other secrets (part other secrets found),fun other secrets found some_ => ?_,
    fun other secrets key value found own => ?_⟩
  · have apart : other ≠ name := by
      rintro rfl
      exact some_ (bare secrets found)
    rw [get_delete,if_neg apart]
    exact recorded.flagged other secrets (part other secrets found) some_
  · refine setSince_append (recorded.since other secrets key value (part other secrets found) own) ?_
    rintro ⟨⟨vaultPassword',other'⟩,_⟩
    obtain ⟨rfl,_⟩ := Call.removeProfile.inj (isRemove.symm.trans other')
    exact get_own_keys own (bare secrets found)

/-- The vault, where there is one, is sealed with what is recorded. -/
def Kept (p : Platform Plaintext Ciphertext) (past : List (Step Ciphertext)) (w : World Ciphertext) : Prop :=
  ∀ file, w.vaultFile = some file → ∃ payload password drawn, file = sealArgon2Vault p payload password drawn ∧
    Recorded past w.profiles payload

variable {password : String}

theorem kept_read (kept : Kept p past w) (read : readVaultPayload p w password = .ok payload) :
    Recorded past w.profiles payload := by
  unfold readVaultPayload at read
  split at read
  next => cases read
  next file found =>
    obtain ⟨held,sealing,drawn,rfl,recorded⟩ := kept file found
    rw [opened read]
    exact recorded

theorem kept_loaded (kept : Kept p past w) (loaded : Loaded p w password payload) : Recorded past w.profiles payload := by
  rcases loaded with ⟨_,rfl⟩ | read
  · exact recorded_empty past w.profiles
  · exact kept_read kept read

theorem kept_stays {w' : World Ciphertext} (kept : Kept p past w) (removes : ∀ name, ¬ Removes name t)
    (vault : w'.vaultFile = w.vaultFile)
    (keeps : ∀ name profile, w.profiles.get name = some profile → profile.hasSecrets = some true → ∃ profile',
      w'.profiles.get name = some profile' ∧ profile'.hasSecrets = some true) :
    Kept p (past ++ [t]) w' := by
  intro file found
  rw [vault] at found
  obtain ⟨payload,password,drawn,sealed,recorded⟩ := kept file found
  exact ⟨payload,password,drawn,sealed,recorded_stays recorded removes keeps⟩

theorem flags_kept {profiles : OrderedMap String ProfileConfig} {name updatedAt : String} :
    ∀ other profile, profiles.get other = some profile → profile.hasSecrets = some true →
      ∃ profile', (flagged profiles name true updatedAt).get other = some profile' ∧ profile'.hasSecrets = some true := by
  intro other profile found flag
  rw [get_flagged]
  split
  next own => exact ⟨_,by rw [← own,found]; rfl,rfl⟩
  · exact ⟨profile,found,flag⟩

variable {secrets : ProfileSecrets}

theorem get_setSecret {name key value : String} (found : (payload.setSecret name key value).secrets.get other = some secrets) :
    payload.secrets.get other = some secrets ∨
      (other = name ∧ (name ∉ inheritedNames ∨ ∃ before, payload.secrets.get name = some before) ∧
        ∀ k v, secrets.get k = .own v → (k = key ∧ v = value) ∨
          ∃ before, payload.secrets.get name = some before ∧ before.get k = .own v) := by
  unfold VaultPayload.setSecret at found
  cases is : property payload.secrets name with
  | inherited =>
    rw [is] at found
    exact .inl found
  | undefined =>
    obtain ⟨_,plain⟩ := property_undefined is
    simp only [is,assign_plain _ plain,get_set] at found
    split at found
    next own =>
      obtain rfl := Option.some.inj found
      refine .inr ⟨own,.inl plain,fun k v set_ => ?_⟩
      rcases get_set_secrets set_ with new | old
      · exact .inl new
      · exact absurd old (get_empty_secrets k v)
    next => exact .inl found
  | own before =>
    have was := property_own is
    simp only [is,get_set] at found
    split at found
    next own =>
      obtain rfl := Option.some.inj found
      refine .inr ⟨own,.inr ⟨before,was⟩,fun k v set_ => ?_⟩
      rcases get_set_secrets set_ with new | old
      · exact .inl new
      · exact .inr ⟨before,was,old⟩
    next => exact .inl found

theorem recorded_set {profiles : OrderedMap String ProfileConfig} (recorded : Recorded past profiles payload)
    {name key value updatedAt : String} (sets : Sets name key value t)
    (known : (∃ profile, profiles.get name = some profile) ∨ name ∈ inheritedNames) :
    Recorded (past ++ [t]) (flagged profiles name true updatedAt) (payload.setSecret name key value) := by
  have removes : ∀ other, ¬ Removes other t := by
    rintro other ⟨⟨vaultPassword,isRemove⟩,_⟩
    obtain ⟨⟨password,isSet⟩,_⟩ := sets
    cases isSet.symm.trans isRemove
  have stays := recorded_stays recorded removes (@flags_kept profiles name updatedAt)
  have plainName : (name ∉ inheritedNames ∨ ∃ before, payload.secrets.get name = some before) → name ∉ inheritedNames := by
    rintro (plain | ⟨before,was⟩)
    · exact plain
    · exact recorded.plain name before was
  refine ⟨fun other secrets found => ?_,fun other secrets found some_ => ?_,fun other secrets k v found own => ?_⟩
  · rcases get_setSecret found with old | ⟨rfl,plain,_⟩
    · exact recorded.plain other secrets old
    · exact plainName plain
  · rcases get_setSecret found with old | ⟨rfl,plain,_⟩
    · exact stays.flagged other secrets old some_
    · obtain ⟨profile,listed⟩ := known.resolve_right (plainName plain)
      exact ⟨_,by rw [get_flagged,if_pos rfl,listed]; rfl,rfl⟩
  · rcases get_setSecret found with old | ⟨rfl,_,from_⟩
    · exact stays.since other secrets k v old own
    · rcases from_ k v own with ⟨rfl,rfl⟩ | ⟨before,was,old⟩
      · exact ⟨past,t,[],rfl,sets,fun u listed => (List.not_mem_nil listed).elim⟩
      · exact stays.since other before k v was old

theorem get_deleteSecret {name key : String} (found : (payload.deleteSecret name key).secrets.get other = some secrets) :
    ∃ before, payload.secrets.get other = some before ∧ ∀ k v, secrets.get k = .own v → before.get k = .own v := by
  unfold VaultPayload.deleteSecret at found
  cases is : property payload.secrets name with
  | undefined =>
    rw [is] at found
    exact ⟨secrets,found,fun _ _ own => own⟩
  | inherited =>
    rw [is] at found
    exact ⟨secrets,found,fun _ _ own => own⟩
  | own before =>
    simp only [is,get_set] at found
    split at found
    next own =>
      obtain rfl := Option.some.inj found
      exact ⟨before,by rw [own]; exact property_own is,fun _ _ => get_delete_secrets⟩
    next => exact ⟨secrets,found,fun _ _ own => own⟩

theorem get_deleteSecret_apart (payload : VaultPayload) {name : String} (key : String) (apart : other ≠ name) :
    (payload.deleteSecret name key).secrets.get other = payload.secrets.get other := by
  unfold VaultPayload.deleteSecret
  cases property payload.secrets name with
  | undefined => rfl
  | inherited => rfl
  | own before => exact (get_set ..).trans (if_neg apart)

theorem recorded_delete {profiles : OrderedMap String ProfileConfig} (recorded : Recorded past profiles payload)
    {name key updatedAt : String} (isDelete : t.input = .deleteSecret name key password)
    (known : (∃ profile, profiles.get name = some profile) ∨ name ∈ inheritedNames) :
    Recorded (past ++ [t]) (flagged profiles name (0 < (match property (payload.deleteSecret name key).secrets name with
      | .own secrets => secrets.keys
      | _ => []).length) updatedAt) (payload.deleteSecret name key) := by
  have removes : ∀ other, ¬ Removes other t := by
    rintro other ⟨⟨vaultPassword,isRemove⟩,_⟩
    cases isDelete.symm.trans isRemove
  have plain : ∀ other secrets, (payload.deleteSecret name key).secrets.get other = some secrets → other ∉ inheritedNames := by
    intro other secrets found
    obtain ⟨before,was,_⟩ := get_deleteSecret found
    exact recorded.plain other before was
  refine ⟨plain,fun other secrets found some_ => ?_,fun other secrets k v found own => ?_⟩
  · by_cases same : other = name
    · subst same
      obtain ⟨profile,listed⟩ := known.resolve_right (plain other secrets found)
      have counted : 0 < secrets.keys.length := List.length_pos_of_ne_nil some_
      refine ⟨_,by rw [get_flagged,if_pos rfl,listed]; rfl,?_⟩
      simp only [property,found,counted,decide_true]
    · rw [get_deleteSecret_apart payload key same] at found
      rw [get_flagged,if_neg same]
      exact recorded.flagged other secrets found some_
  · obtain ⟨before,was,keeps⟩ := get_deleteSecret found
    exact setSince_append (recorded.since other before k v was (keeps k v own)) (removes other)

/-- The removal of a profile that says it has secrets is given a password that opens the vault. -/
def cleans (p : Platform Plaintext Ciphertext) (w : World Ciphertext) : Call → Bool
  | .removeProfile name vaultPassword =>
    !((w.profiles.get name).any fun profile => profile.hasSecrets = some true) ||
      vaultPassword.any fun password => password ≠ "" && (readVaultPayload p w password).toOption.isSome
  | _ => true

theorem kept_removed {after : World Ciphertext} (kept : Kept p past w) {name : String}
    (isRemove : t.input = .removeProfile name vaultPassword) (clean : cleans p w (.removeProfile name vaultPassword) = true)
    (profiles : after.profiles = w.profiles.delete name)
    (vault : after.vaultFile = (if (w.profiles.get name).any (fun profile => profile.hasSecrets =
      some true) then cleanUp p w name vaultPassword else w).vaultFile) :
    Kept p (past ++ [t]) after := by
  intro file found
  rw [vault] at found
  rw [profiles]
  split at found
  next flag =>
    simp only [cleans,flag,Bool.not_true,Bool.false_or] at clean
    obtain ⟨password,rfl,works⟩ := (Option.any_eq_true _ _).mp clean
    obtain ⟨given,opens⟩ := Bool.and_eq_true_iff.mp works
    have nonempty : password ≠ "" := of_decide_eq_true given
    cases read : readVaultPayload p w password with
    | error e =>
      rw [read] at opens
      cases opens
    | ok payload =>
      simp only [cleanUp,if_neg nonempty,read] at found
      refine ⟨⟨payload.secrets.delete name⟩,password,w.drawn,(Option.some.inj found).symm,?_⟩
      refine recorded_removes (kept_read kept read) isRemove (fun other secrets listed => ?_) fun secrets listed => ?_
      · rw [get_delete] at listed
        split at listed
        · cases listed
        · exact listed
      · rw [get_delete,if_pos rfl] at listed
        cases listed
  next unflagged =>
    obtain ⟨payload,password,drawn,sealed,recorded⟩ := kept file found
    refine ⟨payload,password,drawn,sealed,recorded_removes recorded isRemove (fun _ _ listed => listed) fun secrets listed => ?_⟩
    by_contra some_
    obtain ⟨profile,held,flag⟩ := recorded.flagged name secrets listed some_
    exact unflagged (by rw [held]; simpa using flag)

theorem kept_step (kept : Kept p past w) {call : Call} (clean : cleans p w call = true) :
    Kept p (past ++ [transition (step p) w call]) (step p w call).2 := by
  have moves := step_moves (p := p) w call
  have same : (transition (step p) w call).answer = (step p w call).1 := rfl
  have isInput : (transition (step p) w call).input = call := rfl
  generalize transition (step p) w call = t at same isInput ⊢
  generalize step p w call = moved at moves same ⊢
  have unmoved : ∀ {other : World Ciphertext}, other.vaultFile = w.vaultFile → other.profiles = w.profiles →
      (∀ name, ¬ Removes name t) → Kept p (past ++ [t]) other := by
    intro other vault profiles removes
    refine kept_stays kept removes vault fun name profile found flag => ?_
    rw [profiles]
    exact ⟨profile,found,flag⟩
  cases moves with
  | refused e =>
    refine unmoved rfl rfl ?_
    rintro name ⟨_,fine⟩
    cases same.symm.trans fine
  | time now =>
    refine unmoved rfl rfl ?_
    rintro name ⟨⟨_,isRemove⟩,_⟩
    cases isInput.symm.trans isRemove
  | activated known profiles active vault =>
    refine unmoved vault profiles ?_
    rintro name ⟨⟨_,isRemove⟩,_⟩
    cases isInput.symm.trans isRemove
  | created free plain bare profiles active vault =>
    refine kept_stays kept ?_ vault fun name profile found flag => ?_
    · rintro name ⟨⟨_,isRemove⟩,_⟩
      cases isInput.symm.trans isRemove
    · simp only at profiles ⊢
      rw [profiles,get_set]
      split
      next own =>
        rw [own,free] at found
        cases found
      next => exact ⟨profile,found,flag⟩
  | updated keeps profiles active vault =>
    refine kept_stays kept ?_ vault fun name profile found flag => ?_
    · rintro name ⟨⟨_,isRemove⟩,_⟩
      cases isInput.symm.trans isRemove
    · simp only at profiles ⊢
      rw [profiles]
      rcases get_assign found with still | ⟨own,new⟩
      · exact ⟨profile,still,flag⟩
      · rw [own] at found
        exact ⟨_,new,by rw [keeps profile found]; exact flag⟩
  | removed profiles active vault => exact kept_removed kept isInput clean profiles vault
  | secretSet known loaded profiles active vault =>
    intro file found
    refine ⟨_,_,_,(Option.some.inj (vault.symm.trans found)).symm,?_⟩
    simp only at profiles ⊢
    rw [profiles]
    exact recorded_set (kept_loaded kept loaded) ⟨⟨_,isInput⟩,same⟩ known
  | secretDeleted known loaded profiles active vault =>
    intro file found
    refine ⟨_,_,_,(Option.some.inj (vault.symm.trans found)).symm,?_⟩
    simp only at profiles ⊢
    rw [profiles]
    exact recorded_delete (kept_read kept loaded) isInput known

theorem run_active (p : Platform Plaintext Ciphertext) (now : Date) (calls : List Call) (plain : ∀ call ∈ calls, call.plain = true) :
    ActiveExists (run (step p) (World.new now) calls) :=
  run_inv_of_mem (I := ActiveExists) (fun _ call listed exists_ => active_step exists_ (plain call listed)) fun name isActive => by
    cases isActive

theorem run_kept (p : Platform Plaintext Ciphertext) (now : Date) (calls : List Call)
    (clean : ∀ t ∈ history (step p) (World.new now) calls, cleans p t.before t.input = true) :
    Kept p (history (step p) (World.new now) calls) (run (step p) (World.new now) calls) := by
  induction calls using List.reverseRecOn with
  | nil =>
    rintro file ⟨⟩
  | append_singleton calls call ih =>
    rw [history_append] at clean ⊢
    rw [run_append]
    exact kept_step (ih fun t listed => clean t (List.mem_append_left _ listed))
      (clean _ (List.mem_append_right _ (List.mem_singleton_self _)))

theorem getSecret_read {name key value : String} (got : getSecret p w name key password = .ok (.own value)) :
    ∃ payload secrets, readVaultPayload p w password = .ok payload ∧ payload.secrets.get name = some secrets ∧
      secrets.get key = .own value := by
  simp only [getSecret,bind,Except.bind] at got
  split at got
  next => cases got
  next data _ =>
    split at got
    next => cases got
    next =>
      split at got
      next => cases got
      next payload opens =>
        split at got
        next => cases got
        next secrets is => exact ⟨payload,secrets,opens,property_own is,Except.ok.inj got⟩
        next => cases got

/-- The active profile exists unless an inherited name was made active; and where every removal of a profile that says
    it has secrets is given a password that opens the vault, a profile that says it has none has none, and `getSecret`
    returns only what was set since the profile was removed last. -/
theorem profile_store_sound (p : Platform Plaintext Ciphertext) (now : Date) (calls : List Call) :
    ((∀ call ∈ calls, call.plain = true) → ∀ name, (run (step p) (World.new now) calls).activeProfile = some name →
      ∃ profile, (run (step p) (World.new now) calls).profiles.get name = some profile) ∧
    ((∀ t ∈ history (step p) (World.new now) calls, cleans p t.before t.input = true) →
      (∀ name profile, (run (step p) (World.new now) calls).profiles.get name = some profile → profile.hasSecrets = some false →
        ∀ password payload secrets, readVaultPayload p (run (step p) (World.new now) calls) password = .ok payload →
          payload.secrets.get name = some secrets → secrets.keys = []) ∧
      ∀ name key password value, getSecret p (run (step p) (World.new now) calls) name key password = .ok (.own value) →
        SetSince (history (step p) (World.new now) calls) name key value) := by
  refine ⟨fun plain => run_active p now calls plain,fun clean => ?_⟩
  have kept := run_kept p now calls clean
  refine ⟨fun name profile listed bare password payload secrets read found => ?_,fun name key password value got => ?_⟩
  · by_contra some_
    obtain ⟨other,held,flag⟩ := (kept_read kept read).flagged name secrets found some_
    obtain rfl := Option.some.inj (held.symm.trans listed)
    rw [bare] at flag
    cases flag
  · obtain ⟨payload,secrets,read,found,own⟩ := getSecret_read got
    exact (kept_read kept read).since name secrets key value found own

/-- Every payload is its own text, and ciphertexts keep the key and the nonce that they were made with. -/
def samplePlatform : Platform VaultPayload (List UInt8 × List UInt8 × VaultPayload) where
  randomBytes call n := List.replicate n (UInt8.ofNat call)
  deriveArgon2idKey password salt := password.toList.map (fun c => UInt8.ofNat c.toNat) ++ salt
  cipher key nonce plaintext := ((key,nonce,plaintext),List.replicate AUTH_TAG_BYTES 0)
  decipher key nonce authTag ciphertext :=
    if ciphertext.1 = key ∧ ciphertext.2.1 = nonce ∧ authTag = List.replicate AUTH_TAG_BYTES 0 then some ciphertext.2.2 else none
  stringify payload := payload
  parse payload := some payload
  validateProfilesFile _ := .ok ()
  randomBytes_length _ _ := List.length_replicate
  tag_length _ _ _ := List.length_replicate
  inverts _ _ _ := if_pos ⟨rfl,rfl,rfl⟩
  authentic _ _ _ _ other := if_neg fun same => other same.1.symm
  parse_stringify _ := rfl

def sampleFields : ProfileFields := ⟨some "testnet",some "http://localhost:3001",none⟩
def sampleDate : Date := ⟨0,zero_inRange⟩

/-- A profile with a secret is removed and created again. -/
def recreated (vaultPassword : Option String) : List Call :=
  [.createProfile "testnet" sampleFields,.setSecret "testnet" "apiKey" "sk_old" "pw",.removeProfile "testnet" vaultPassword,
    .createProfile "testnet" sampleFields]

/-- With the password, and another secret. -/
def cleanedUp : List Call := recreated (some "pw") ++ [.setSecret "testnet" "apiKey" "sk_new" "pw"]

theorem cleanedUp_cleans :
    (∀ call ∈ cleanedUp, call.plain = true) ∧
    (∀ t ∈ history (step samplePlatform) (World.new sampleDate) cleanedUp, cleans samplePlatform t.before t.input = true) ∧
    (run (step samplePlatform) (World.new sampleDate) cleanedUp).activeProfile = some "testnet" ∧
    getSecret samplePlatform (run (step samplePlatform) (World.new sampleDate) cleanedUp) "testnet" "apiKey" "pw" =
      .ok (.own "sk_new") := by
  refine ⟨by decide,by decide +kernel,by decide +kernel,by decide +kernel⟩

theorem profile_store_sound_cleaned :
    (∃ profile, (run (step samplePlatform) (World.new sampleDate) cleanedUp).profiles.get "testnet" = some profile) ∧
      SetSince (history (step samplePlatform) (World.new sampleDate) cleanedUp) "testnet" "apiKey" "sk_new" := by
  obtain ⟨plain,clean,active,got⟩ := cleanedUp_cleans
  exact ⟨(profile_store_sound samplePlatform sampleDate cleanedUp).1 plain "testnet" active,
    ((profile_store_sound samplePlatform sampleDate cleanedUp).2 clean).2 "testnet" "apiKey" "pw" "sk_new" got⟩

theorem recreated_keeps :
    ((run (step samplePlatform) (World.new sampleDate) (recreated none)).profiles.get "testnet").map ProfileConfig.hasSecrets =
      some (some false) ∧
    (((readVaultPayload samplePlatform (run (step samplePlatform) (World.new sampleDate) (recreated none)) "pw").toOption.bind
      fun payload => payload.secrets.get "testnet").map ProfileSecrets.keys) = some ["apiKey"] ∧
    getSecret samplePlatform (run (step samplePlatform) (World.new sampleDate) (recreated none)) "testnet" "apiKey" "pw" =
      .ok (.own "sk_old") := by
  refine ⟨by decide +kernel,by decide +kernel,by decide +kernel⟩

/-- An inherited name is made active, a new profile has secrets that it does not say it has, and `getSecret` returns a
    secret that was set before the removal. -/
theorem profile_store_leaks :
    (¬ ∀ calls name, (run (step samplePlatform) (World.new sampleDate) calls).activeProfile = some name →
      ∃ profile, (run (step samplePlatform) (World.new sampleDate) calls).profiles.get name = some profile) ∧
    (¬ ∀ calls name profile, (run (step samplePlatform) (World.new sampleDate) calls).profiles.get name = some profile →
      profile.hasSecrets = some false → ∀ password payload secrets,
        readVaultPayload samplePlatform (run (step samplePlatform) (World.new sampleDate) calls) password = .ok payload →
          payload.secrets.get name = some secrets → secrets.keys = []) ∧
    ¬ ∀ calls name vaultPassword config key password value,
      getSecret samplePlatform (run (step samplePlatform) (World.new sampleDate)
        (calls ++ [.removeProfile name vaultPassword,.createProfile name config])) name key password ≠ .ok (.own value) := by
  obtain ⟨bare,held,got⟩ := recreated_keeps
  refine ⟨fun exists_ => ?_,fun none_ => ?_,fun never => ?_⟩
  · obtain ⟨profile,found⟩ := exists_ [.setActiveProfile "constructor"] "constructor" (by decide +kernel)
    have absent : (run (step samplePlatform) (World.new sampleDate) [.setActiveProfile "constructor"]).profiles.get "constructor" = none := by
      decide +kernel
    rw [absent] at found
    cases found
  · obtain ⟨profile,listed,flag⟩ := Option.map_eq_some_iff.mp bare
    obtain ⟨secrets,found,keys⟩ := Option.map_eq_some_iff.mp held
    obtain ⟨payload,read,entry⟩ := Option.bind_eq_some_iff.mp found
    have opens : readVaultPayload samplePlatform (run (step samplePlatform) (World.new sampleDate) (recreated none)) "pw" = .ok payload := by
      cases result : readVaultPayload samplePlatform (run (step samplePlatform) (World.new sampleDate) (recreated none)) "pw" with
      | error e =>
        rw [result] at read
        cases read
      | ok other =>
        rw [result] at read
        exact congrArg Except.ok (Option.some.inj read)
    rw [none_ (recreated none) "testnet" profile listed flag "pw" payload secrets opens entry] at keys
    cases keys
  · exact never [.createProfile "testnet" sampleFields,.setSecret "testnet" "apiKey" "sk_old" "pw"] "testnet" none sampleFields
      "apiKey" "pw" "sk_old" got

end StellarAlerts.ProfileStore
