import StellarAlerts.StateDiff

/-!
What a patch does to the snapshot it was made of.
-/
namespace StellarAlerts.StatePatches
open JsonPatches
open ProfileStore (inheritedNames)
open StateDiff
open Utf16Text (sortTexts mem_sortTexts)
universe u
variable {N : Type u} [DecidableEq N]

/-- The patch by its tokens. -/
def diff (before : Property N) (after : Value N) : List (Operation N) :=
  patchWith (fun tokens token => tokens ++ [token]) id (some before) after []

theorem pointerText_ne {tokens : List String} (some_ : tokens ≠ []) : pointerText tokens ≠ "" := by
  cases tokens with
  | nil => exact absurd rfl some_
  | cons token later =>
    intro empty
    have letters := congrArg String.toList empty
    simp [pointerText] at letters

theorem createJsonPatch_eq {before : Property N} {after : Value N} (containers : Containers before after) :
    createJsonPatch (some before) after "" = (diff before after).map (Operation.map pointerText) := by
  refine patchWith_map (f := pointerText) (fun tokens token => (pathFor_text tokens token).symm) (fun tokens token => ?_) before after []
    (.inl containers)
  rw [if_neg (pointerText_ne (by simp)),id]

theorem diff_under (before : Property N) (after : Value N) (token : String) :
    patchWith (fun tokens token => tokens ++ [token]) id (some before) after [token] = (diff before after).map (Operation.under token) :=
  @patchWith_map N _ _ _ (fun tokens token => tokens ++ [token]) id (fun tokens token => tokens ++ [token]) id (token :: ·)
    (fun _ _ => rfl) (fun _ _ => rfl) before after [] (.inr rfl)

def itemOps : Nat → List (Value N) → List (Value N) → List (Operation N)
  | i, v :: before, v' :: after => (diff (.value v) v').map (Operation.under (toString i)) ++ itemOps (i + 1) before after
  | _, _, _ => []

theorem patchItems_eq (i : Nat) (before after : List (Value N)) :
    patchItems (fun tokens token => tokens ++ [token]) id i before after [] = itemOps i before after := by
  induction before generalizing i after with
  | nil => simp [patchItems,itemOps]
  | cons v before ih =>
    cases after with
    | nil => simp [patchItems,itemOps]
    | cons v' after => rw [patchItems,ih,List.nil_append,diff_under,itemOps]

theorem diff_array (items items' : List (Value N)) : diff (.value (.array items)) (.array items') =
    itemOps 0 items items' ++
      (List.range' items'.length (items.length - items'.length)).reverse.map (fun i => ⟨[toString i],.remove⟩) ++
      ((items'.drop items.length).zipIdx items.length).map fun item => ⟨[toString item.2],.add item.1⟩ := by
  rw [diff,patchWith_array]
  simp only [Property.items,patchItems_eq,removeItems,addItems,List.nil_append]

def slotOps (members members' : Members N) (key : String) : List (Operation N) :=
  match get members' key with
  | none => [⟨[],.remove⟩]
  | some v =>
    match (Property.value (.object members)).read key with
    | none => [⟨[],.add v⟩]
    | some inner => diff inner v

def removedKeys (members members' : Members N) : List String := (sortTexts (keys members)).filter fun key => !hasKey members' key

omit [DecidableEq N] in
theorem get_of_removed {members members' : Members N} {key : String} (removed : key ∈ removedKeys members members') :
    get members' key = none := by
  have without := (List.mem_filter.mp removed).2
  simp only [hasKey,Bool.not_or,Bool.and_eq_true,Bool.not_eq_true'] at without
  exact Option.isSome_eq_false_iff.mp without.1 |> Option.isNone_iff_eq_none.mp

theorem diff_object (members members' : Members N) : diff (.value (.object members)) (.object members') =
    (removedKeys members members' ++ sortTexts (keys members')).flatMap fun key =>
      (slotOps members members' key).map (Operation.under key) := by
  have removes : removeKeys (fun tokens token => tokens ++ [token]) (keys members) members' [] =
      (removedKeys members members').flatMap fun key => (slotOps members members' key).map (Operation.under key) := by
    rw [removeKeys,← removedKeys,List.map_eq_flatMap]
    refine List.flatMap_congr fun key listed => ?_
    rw [slotOps,get_of_removed listed]
    rfl
  have sets : (sortTexts (keys members')).flatMap (memberPatch (fun tokens token => tokens ++ [token]) id
      (.value (.object members)) members' []) =
        (sortTexts (keys members')).flatMap fun key => (slotOps members members' key).map (Operation.under key) := by
    refine List.flatMap_congr fun key listed => ?_
    obtain ⟨v,found⟩ := mem_keys.mp (mem_sortTexts.mp listed)
    rw [memberPatch,slotOps,found]
    cases (Property.value (.object members)).read key with
    | none => rfl
    | some inner => exact diff_under inner v key
  rw [diff,patchWith_object]
  simp only [Property.ownKeys]
  rw [removes,sets,← List.flatMap_append]

omit [DecidableEq N] in
theorem inner_under (token : String) (operations : List (Operation N)) :
    ∀ operation ∈ operations.map (Operation.under token), operation.Inner := by
  intro operation listed
  obtain ⟨below,-,rfl⟩ := List.mem_map.mp listed
  exact fun empty => nomatch empty

theorem inner_itemOps (i : Nat) (items items' : List (Value N)) : ∀ operation ∈ itemOps i items items', operation.Inner := by
  induction items generalizing i items' with
  | nil => exact fun _ listed => absurd listed (by simp [itemOps])
  | cons v before ih =>
    cases items' with
    | nil => exact fun _ listed => absurd listed (by simp [itemOps])
    | cons v' after =>
      intro operation listed
      rw [itemOps] at listed
      rcases List.mem_append.mp listed with listed | listed
      · exact inner_under _ _ operation listed
      · exact ih (i + 1) after operation listed

omit [DecidableEq N] in
theorem inner_replaced (after : Value N) : ∀ operation ∈ [(⟨[],.replace after⟩ : Operation N)], operation.Inner := by
  intro operation listed
  rw [List.mem_singleton.mp listed]
  exact fun _ => ⟨after,rfl⟩

theorem diff_leaf (before : Property N) {after : Value N} (noArray : ∀ items, after ≠ .array items)
    (noObject : ∀ members, after ≠ .object members) :
    diff before after = if identical before after then [] else [⟨[],.replace after⟩] := patchWith_leaf before [] noArray noObject

theorem inner_leaf (before : Property N) {after : Value N} (noArray : ∀ items, after ≠ .array items)
    (noObject : ∀ members, after ≠ .object members) : ∀ operation ∈ diff before after, operation.Inner := by
  rw [diff_leaf before noArray noObject]
  split
  · intro _ listed
    cases listed
  · exact inner_replaced after

theorem inner_diff (before : Property N) (after : Value N) : ∀ operation ∈ diff before after, operation.Inner := by
  cases after with
  | array items' =>
    rw [diff,patchWith_array]
    cases is : before.items with
    | none => exact inner_replaced _
    | some items =>
      intro operation listed
      simp only [patchItems_eq] at listed
      rcases List.mem_append.mp listed with listed | listed
      · rcases List.mem_append.mp listed with listed | listed
        · exact inner_itemOps 0 items items' operation listed
        · obtain ⟨i,-,rfl⟩ := List.mem_map.mp listed
          exact fun empty => nomatch empty
      · obtain ⟨item,-,rfl⟩ := List.mem_map.mp listed
        exact fun empty => nomatch empty
  | object members' =>
    rw [diff,patchWith_object]
    cases is : before.ownKeys with
    | none => exact inner_replaced _
    | some beforeKeys =>
      intro operation listed
      rcases List.mem_append.mp listed with listed | listed
      · obtain ⟨key,-,rfl⟩ := List.mem_map.mp listed
        exact fun empty => nomatch empty
      · obtain ⟨key,-,listed⟩ := List.mem_flatMap.mp listed
        rw [memberPatch] at listed
        split at listed
        · cases listed
        · split at listed
          · rw [List.mem_singleton.mp listed]
            exact fun empty => nomatch empty
          · rw [List.nil_append,diff_under] at listed
            exact inner_under _ _ operation listed
  | null => exact inner_leaf before (by simp) (by simp)
  | bool b => exact inner_leaf before (by simp) (by simp)
  | number n => exact inner_leaf before (by simp) (by simp)
  | string s => exact inner_leaf before (by simp) (by simp)

/-- The patch of a value, applied to it, gives the other. -/
def Correct (before after : Value N) : Prop := ∃ result, applyAll (diff (.value before) after) before = some result ∧ Same result after

/-- What the patches of the items make of them. -/
def runItems : List (Value N) → List (Value N) → Option (List (Value N))
  | v :: before, v' :: after => (applyAll (diff (.value v) v') v).bind fun result => (runItems before after).map (result :: ·)
  | _, _ => some []

theorem applyAll_itemOps (kept items items' : List (Value N)) :
    applyAll (itemOps kept.length items items') (.array (kept ++ items)) =
      (runItems items items').map fun results => .array (kept ++ results ++ items.drop items'.length) := by
  induction items generalizing kept items' with
  | nil => simp [itemOps,runItems,applyAll]
  | cons v before ih =>
    cases items' with
    | nil => simp [itemOps,runItems,applyAll]
    | cons v' after =>
      rw [itemOps,applyAll_append,applyAll_item (inner_diff _ _),runItems]
      cases applyAll (diff (.value v) v') v with
      | none => rfl
      | some result =>
        have behind := ih (kept ++ [result]) after
        rw [List.length_append,List.length_singleton,List.append_assoc,List.singleton_append] at behind
        rw [Option.map_some,Option.bind_some,behind,Option.bind_some,Option.map_map]
        cases runItems before after <;> simp

variable {items' : List (Value N)}

theorem length_runItems {items results : List (Value N)} (ran : runItems items items' = some results) :
    results.length = min items.length items'.length := by
  induction items generalizing items' results with
  | nil =>
    obtain rfl : [] = results := Option.some.inj (by simpa [runItems] using ran)
    simp
  | cons v before ih =>
    cases items' with
    | nil =>
      obtain rfl : [] = results := Option.some.inj (by simpa [runItems] using ran)
      simp
    | cons v' after =>
      rw [runItems] at ran
      obtain ⟨result,-,ran⟩ := Option.bind_eq_some_iff.mp ran
      obtain ⟨later,ran',rfl⟩ := Option.map_eq_some_iff.mp ran
      have lengths := ih ran'
      simp only [List.length_cons,lengths]
      omega

theorem runItems_iff (items items' : List (Value N)) :
    (∃ results, runItems items items' = some results ∧
      ∀ (i : Nat) (v v' : Value N), results[i]? = some v → items'[i]? = some v' → Same v v') ↔
    ∀ (i : Nat) (v v' : Value N), items[i]? = some v → items'[i]? = some v' → Correct v v' := by
  induction items generalizing items' with
  | nil => simp [runItems]
  | cons w before ih =>
    cases items' with
    | nil => simp [runItems]
    | cons w' after =>
      constructor
      · rintro ⟨results,ran,same⟩
        rw [runItems] at ran
        obtain ⟨result,first,ran⟩ := Option.bind_eq_some_iff.mp ran
        obtain ⟨later,ran',rfl⟩ := Option.map_eq_some_iff.mp ran
        have others := (ih after).mp ⟨later,ran',fun i v v' is is' => same (i + 1) v v' is is'⟩
        intro i v v' is is'
        cases i with
        | zero =>
          obtain rfl := Option.some.inj is
          obtain rfl := Option.some.inj is'
          exact ⟨result,first,same 0 result w' rfl rfl⟩
        | succ i => exact others i v v' is is'
      · intro each
        obtain ⟨result,first,same⟩ := each 0 w w' rfl rfl
        obtain ⟨later,ran,others⟩ := (ih after).mpr fun i v v' is is' => each (i + 1) v v' is is'
        refine ⟨result :: later,by rw [runItems,first,Option.bind_some,ran,Option.map_some],fun i v v' is is' => ?_⟩
        cases i with
        | zero =>
          obtain rfl := Option.some.inj is
          obtain rfl := Option.some.inj is'
          exact same
        | succ i => exact others i v v' is is'

theorem applyAll_array (items items' : List (Value N)) :
    applyAll (diff (.value (.array items)) (.array items')) (.array items) =
      (runItems items items').map fun results => .array (results ++ items'.drop items.length) := by
  have shared := applyAll_itemOps [] items items'
  rw [List.length_nil,List.nil_append] at shared
  rw [diff_array,applyAll_append,applyAll_append,shared]
  cases ran : runItems items items' with
  | none => rfl
  | some results =>
    have lengths := length_runItems ran
    have removed : applyAll ((List.range' items'.length (items.length - items'.length)).reverse.map fun i => ⟨[toString i],.remove⟩)
        (.array (results ++ items.drop items'.length)) = some (.array results) := by
      rcases le_total items.length items'.length with shorter | longer
      · rw [Nat.sub_eq_zero_of_le shorter,List.drop_eq_nil_of_le shorter,List.append_nil]
        rfl
      · have whole := applyAll_removes results (items.drop items'.length)
        rwa [lengths,min_eq_right longer,List.length_drop] at whole
    have added : applyAll (((items'.drop items.length).zipIdx items.length).map fun item => ⟨[toString item.2],.add item.1⟩)
        (.array results) = some (.array (results ++ items'.drop items.length)) := by
      rcases le_total items'.length items.length with shorter | longer
      · rw [List.drop_eq_nil_of_le shorter,List.append_nil]
        rfl
      · have whole := applyAll_adds results (items'.drop items.length)
        rwa [lengths,min_eq_left longer] at whole
    rw [Option.map_some,Option.bind_some,List.nil_append,removed,Option.bind_some,added,Option.map_some]

theorem correct_array (items items' : List (Value N)) : Correct (.array items) (.array items') ↔
    ∀ (i : Nat) (v v' : Value N), items[i]? = some v → items'[i]? = some v' → Correct v v' := by
  rw [← runItems_iff,Correct,applyAll_array]
  constructor
  · rintro ⟨result,ran,same⟩
    obtain ⟨results,ran',rfl⟩ := Option.map_eq_some_iff.mp ran
    refine ⟨results,ran',fun i v v' is is' => ?_⟩
    cases same with
    | array _ each =>
      have within : i < results.length := (List.getElem?_eq_some_iff.mp is).1
      exact each i v v' (by rw [List.getElem?_append_left within]; exact is) is'
  · rintro ⟨results,ran,same⟩
    refine ⟨_,by rw [ran,Option.map_some],.array ?_ fun i v v' is is' => ?_⟩
    · rw [List.length_append,length_runItems ran,List.length_drop]
      omega
    · rcases Nat.lt_or_ge i results.length with within | behind
      · rw [List.getElem?_append_left within] at is
        exact same i v v' is is'
      · -- Behind the shared items are those of the longer array.
        rw [List.getElem?_append_right behind,List.getElem?_drop] at is
        have lengths := length_runItems ran
        have there := (List.getElem?_eq_some_iff.mp is).1
        have place : items.length + (i - results.length) = i := by omega
        rw [place] at is
        obtain rfl := Option.some.inj (is.symm.trans is')
        exact same_refl v

section Members
variable (members members' : Members N)

/-- The keys that operations are below. -/
def patchedKeys : List String := removedKeys members members' ++ sortTexts (keys members')

variable {members members'} {key : String}

omit [DecidableEq N] in
theorem nodup_patchedKeys : (patchedKeys members members').Nodup := by
  have sorted : ∀ names : List String, names.Nodup → (sortTexts names).Nodup := fun names distinct =>
    (List.mergeSort_perm names _).nodup_iff.mpr distinct
  refine List.Nodup.append ((sorted _ (nodup_keys members)).filter _) (sorted _ (nodup_keys members')) ?_
  intro key removed kept
  obtain ⟨v,found⟩ := mem_keys.mp (mem_sortTexts.mp kept)
  rw [get_of_removed removed] at found
  cases found

omit [DecidableEq N] in
theorem mem_patchedKeys : key ∈ patchedKeys members members' ↔
    (get members key).isSome = true ∧ (get members' key).isSome = false ∧ key ∉ inheritedNames ∨ (get members' key).isSome = true := by
  rw [patchedKeys,List.mem_append,mem_sortTexts,mem_keys,removedKeys,List.mem_filter,mem_sortTexts,mem_keys,hasKey]
  simp [← Option.isSome_iff_exists]

omit [DecidableEq N] in
theorem read_none (without : get members key = none) : (Property.value (.object members)).read key = inherited key := by
  rw [Property.read,without]

omit [DecidableEq N] in
theorem inherited_none : (inherited key : Option (Property N)) = none ↔ key ∉ inheritedNames := by
  rw [inherited]
  by_cases proto : key = "__proto__"
  · subst proto
    simp [inheritedNames]
  · simp [proto]

/-- A key that one object only has, and that every object inherits. -/
def Hidden (members members' : Members N) (key : String) : Prop :=
  key ∈ inheritedNames ∧ (get members key).isSome ≠ (get members' key).isSome

theorem slotAll_slotOps (open_ : ¬ Hidden members members' key) (patched : key ∈ patchedKeys members members')
    (each : ∀ v v', get members key = some v → get members' key = some v' → Correct v v') :
    ∃ slot, slotAll (slotOps members members' key) (get members key) = some slot ∧
      (slot = none ↔ get members' key = none) ∧ ∀ v v', slot = some v → get members' key = some v' → Same v v' := by
  rcases mem_patchedKeys.mp patched with ⟨there,gone,-⟩ | kept
  · obtain ⟨v,found⟩ := Option.isSome_iff_exists.mp there
    have none_ : get members' key = none := by simpa using gone
    refine ⟨none,?_,by simp [none_],fun _ _ is => nomatch is⟩
    rw [slotOps,none_,found]
    rfl
  · obtain ⟨v',found'⟩ := Option.isSome_iff_exists.mp kept
    cases found : get members key with
    | none =>
      have own : key ∉ inheritedNames := fun listed => open_ ⟨listed,by simp [found,found']⟩
      refine ⟨some v',?_,by simp [found'],fun v w is is' => ?_⟩
      · simp only [slotOps,found',read_none found,inherited_none.mpr own]
        rfl
      · obtain rfl := Option.some.inj is
        obtain rfl := Option.some.inj (found'.symm.trans is')
        exact same_refl _
    | some v =>
      obtain ⟨result,ran,same⟩ := each v v' found found'
      refine ⟨some result,?_,by simp [found'],fun w w' is is' => ?_⟩
      · simp only [slotOps,found',Property.read,found]
        rw [slotAll_some (inner_diff _ _),ran]
        rfl
      · obtain rfl := Option.some.inj is
        obtain rfl := Option.some.inj (found'.symm.trans is')
        exact same

theorem correct_of_open (open_ : ∀ key, ¬ Hidden members members' key)
    (each : ∀ key v v', get members key = some v → get members' key = some v' → Correct v v') :
    Correct (.object members) (.object members') := by
  have slot : ∀ key, ∃ slot, key ∈ patchedKeys members members' →
      slotAll (slotOps members members' key) (get members key) = some slot ∧
        (slot = none ↔ get members' key = none) ∧ ∀ v v', slot = some v → get members' key = some v' → Same v v' := by
    intro key
    by_cases patched : key ∈ patchedKeys members members'
    · obtain ⟨slot,rest⟩ := slotAll_slotOps (open_ key) patched (each key)
      exact ⟨slot,fun _ => rest⟩
    · exact ⟨none,fun listed => absurd listed patched⟩
  choose slots run using slot
  obtain ⟨result,ran,changed⟩ := applyAll_slots nodup_patchedKeys fun key listed => (run key listed).1
  refine ⟨.object result,by rw [diff_object]; exact ran,.object (fun key => ?_) fun key v v' is is' => ?_⟩
  · rw [changed]
    split
    · rename_i patched
      exact (run key patched).2.1
    · rename_i untouched
      rw [mem_patchedKeys] at untouched
      have hidden := open_ key
      rw [Hidden] at hidden
      cases found : get members key <;> cases found' : get members' key <;> simp_all
  · rw [changed] at is
    split at is
    · rename_i patched
      exact (run key patched).2.2 v v' is is'
    · rename_i untouched
      exact absurd (mem_patchedKeys.mpr (.inr (by rw [is']; rfl))) untouched

theorem open_of_correct (correct : Correct (.object members) (.object members')) :
    (∀ key, ¬ Hidden members members' key) ∧
      ∀ key v v', get members key = some v → get members' key = some v' → Correct v v' := by
  obtain ⟨result,ran,same⟩ := correct
  rw [diff_object] at ran
  -- Every key's operations succeed, and their slots are those of the result.
  have runs : ∀ key ∈ patchedKeys members members', ∃ slot, slotAll (slotOps members members' key) (get members key) = some slot := by
    intro key listed
    cases fails : slotAll (slotOps members members' key) (get members key) with
    | some slot => exact ⟨slot,rfl⟩
    | none =>
      have failed := applyAll_slots_none nodup_patchedKeys listed fails
      rw [patchedKeys,ran] at failed
      cases failed
  have slot : ∀ key, ∃ slot, key ∈ patchedKeys members members' →
      slotAll (slotOps members members' key) (get members key) = some slot := by
    intro key
    by_cases patched : key ∈ patchedKeys members members'
    · obtain ⟨slot,rest⟩ := runs key patched
      exact ⟨slot,fun _ => rest⟩
    · exact ⟨none,fun listed => absurd listed patched⟩
  choose slots run using slot
  obtain ⟨after,applied,changed⟩ := applyAll_slots nodup_patchedKeys run
  rw [patchedKeys,ran] at applied
  obtain rfl := Option.some.inj applied
  cases same with
  | object names each =>
    refine ⟨?_,?_⟩
    · rintro key ⟨listed,oneOnly⟩
      have final := names key
      rw [changed] at final
      cases found' : get members' key with
      | none =>
        -- The key stays: nothing is done below it.
        have untouched : key ∉ patchedKeys members members' := by
          rw [mem_patchedKeys]
          simp [found',listed]
        rw [if_neg untouched,found'] at final
        rw [found',final.mpr rfl] at oneOnly
        exact oneOnly rfl
      | some v' =>
        -- The key is not added: what is done below it needs it to be there.
        have patched : key ∈ patchedKeys members members' := mem_patchedKeys.mpr (.inr (by rw [found']; rfl))
        have without : get members key = none := by
          cases found : get members key with
          | none => rfl
          | some v => exact absurd (by rw [found,found']; rfl) oneOnly
        obtain ⟨inner,reads⟩ : ∃ inner, (inherited key : Option (Property N)) = some inner :=
          Option.ne_none_iff_exists'.mp fun none_ => inherited_none.mp none_ listed
        have ops := run key patched
        simp only [slotOps,found',read_none without,reads,without] at ops
        rw [slotAll_none (inner_diff _ _)] at ops
        split at ops
        · rw [if_pos patched,← Option.some.inj ops,found'] at final
          cases final.mp rfl
        · cases ops
    · intro key v v' found found'
      have patched : key ∈ patchedKeys members members' := mem_patchedKeys.mpr (.inr (by rw [found']; rfl))
      have ops := run key patched
      simp only [slotOps,found',Property.read,found] at ops
      rw [slotAll_some (inner_diff _ _)] at ops
      obtain ⟨w,applied',is⟩ := Option.map_eq_some_iff.mp ops
      exact ⟨w,applied',each key w v' (by rw [changed,if_pos patched,← is]) found'⟩

theorem correct_object : Correct (.object members) (.object members') ↔
    (∀ key, ¬ Hidden members members' key) ∧
      ∀ key v v', get members key = some v → get members' key = some v' → Correct v v' :=
  ⟨open_of_correct,fun ⟨open_,each⟩ => correct_of_open open_ each⟩

end Members

/-- Somewhere in two snapshots, under the same keys and at the same places, are objects with a hidden key. -/
inductive Clash : Value N → Value N → Prop where
  | hidden {members members' : Members N} (key : String) (hides : Hidden members members' key) :
      Clash (.object members) (.object members')
  | member {members members' : Members N} {v v' : Value N} (key : String) (found : get members key = some v)
      (found' : get members' key = some v') (below : Clash v v') : Clash (.object members) (.object members')
  | item {items items' : List (Value N)} {v v' : Value N} (i : Nat) (is : items[i]? = some v) (is' : items'[i]? = some v')
      (below : Clash v v') : Clash (.array items) (.array items')

theorem correct_other {before after : Value N} (noArrays : ∀ items items', before = .array items → after ≠ .array items')
    (noObjects : ∀ members members', before = .object members → after ≠ .object members') : Correct before after := by
  have replaced : diff (.value before) after = [⟨[],.replace after⟩] → Correct before after := by
    intro is
    exact ⟨after,by rw [is]; rfl,same_refl after⟩
  have leaf : (∀ items, after ≠ .array items) → (∀ members, after ≠ .object members) → Correct before after := by
    intro noArray noObject
    cases same : identical (.value before) after with
    | false => exact replaced (by rw [diff_leaf _ noArray noObject,same]; rfl)
    | true =>
      have equal : before = after := by cases before <;> cases after <;> simp_all [identical]
      refine ⟨before,by rw [diff_leaf _ noArray noObject,same]; rfl,?_⟩
      rw [equal]
      exact same_refl after
  cases after with
  | array items' =>
    refine replaced ?_
    rw [diff,patchWith_array]
    cases before with
    | array items => exact absurd rfl (noArrays items items' rfl)
    | _ => rfl
  | object members' =>
    refine replaced ?_
    rw [diff,patchWith_object]
    cases before with
    | object members => exact absurd rfl (noObjects members members' rfl)
    | _ => rfl
  | _ => exact leaf (by simp) (by simp)

omit [DecidableEq N] in
theorem containers_of_clash {before after : Value N} (clash : Clash before after) : Containers (.value before) after := by
  cases clash with
  | hidden key hides => exact .inr ⟨_,_,rfl,rfl⟩
  | member key found found' below => exact .inr ⟨_,_,rfl,rfl⟩
  | item i is is' below => exact .inl ⟨_,_,rfl,rfl⟩

theorem correct_iff (before after : Value N) : Correct before after ↔ ¬ Clash before after := by
  by_cases containers : Containers (.value before) after
  · rcases containers with ⟨items,items',is,after_⟩ | ⟨members,members',is,after_⟩
    · have before_ := Property.value.inj is
      have smaller : ∀ v' ∈ items', sizeOf v' < sizeOf after := by
        intro v' listed
        have one := List.sizeOf_lt_of_mem listed
        rw [after_,Value.array.sizeOf_spec]
        omega
      rw [before_,after_,correct_array]
      constructor
      · intro each clash
        cases clash with
        | item i is is' below =>
          have less := smaller _ (List.mem_of_getElem? is')
          exact (correct_iff _ _).mp (each i _ _ is is') below
      · intro free i v v' is is'
        have less := smaller v' (List.mem_of_getElem? is')
        exact (correct_iff v v').mpr fun below => free (.item i is is' below)
    · have before_ := Property.value.inj is
      have smaller : ∀ key v', get members' key = some v' → sizeOf v' < sizeOf after := by
        intro key v' found
        rw [after_]
        exact sizeOf_get found
      rw [before_,after_,correct_object]
      constructor
      · rintro ⟨open_,each⟩ clash
        cases clash with
        | hidden key hides => exact open_ key hides
        | member key found found' below =>
          have less := smaller key _ found'
          exact (correct_iff _ _).mp (each key _ _ found found') below
      · refine fun free => ⟨fun key hides => free (.hidden key hides),fun key v v' found found' => ?_⟩
        have less := smaller key v' found'
        exact (correct_iff v v').mpr fun below => free (.member key found found' below)
  · refine iff_of_true (correct_other ?_ ?_) fun clash => containers (containers_of_clash clash)
    · exact fun items items' is is' => containers (.inl ⟨items,items',by rw [is],is'⟩)
    · exact fun members members' is is' => containers (.inr ⟨members,members',by rw [is],is'⟩)
termination_by sizeOf after

theorem itemOps_same {items : List (Value N)}
    (each : ∀ (i : Nat) (v v' : Value N), items[i]? = some v → items'[i]? = some v' → diff (.value v) v' = []) (i : Nat) :
    itemOps i items items' = [] := by
  induction items generalizing i items' with
  | nil => simp [itemOps]
  | cons v before ih =>
    cases items' with
    | nil => simp [itemOps]
    | cons v' after =>
      rw [itemOps,each 0 v v' rfl rfl,ih fun i w w' is is' => each (i + 1) w w' is is']
      rfl

theorem diff_same {before after : Value N} (same : Same before after) : diff (.value before) after = [] := by
  induction same with
  | array length each ih =>
    rw [diff_array,itemOps_same ih,length,Nat.sub_self,List.drop_length]
    rfl
  | @object members members' names each ih =>
    have kept : removedKeys members members' = [] := by
      refine List.filter_eq_nil_iff.mpr fun key listed => ?_
      obtain ⟨v,found⟩ := mem_keys.mp (mem_sortTexts.mp listed)
      have there : get members' key ≠ none := fun gone => by rw [(names key).mpr gone] at found; cases found
      simp [hasKey,Option.isSome_iff_ne_none.mpr there]
    rw [diff_object,kept,List.nil_append]
    refine List.flatMap_eq_nil_iff.mpr fun key listed => ?_
    obtain ⟨v',found'⟩ := mem_keys.mp (mem_sortTexts.mp listed)
    have there : get members key ≠ none := fun gone => by rw [(names key).mp gone] at found'; cases found'
    obtain ⟨v,found⟩ := Option.ne_none_iff_exists'.mp there
    simp only [slotOps,found',Property.read,found,ih key v v' found found',List.map_nil]
  | null => simp [diff_leaf,identical]
  | bool b => simp [diff_leaf,identical]
  | number n => simp [diff_leaf,identical]
  | string s => simp [diff_leaf,identical]

/-- The patch takes one snapshot to the other, and is empty between the same. -/
structure Patches (before after : Value N) : Prop where
  yields : ∃ result, applyPatch (createJsonPatch (some (.value before)) after "") before = some result ∧ Same result after
  empty : Same before after → createJsonPatch (some (.value before)) after "" = []

/-- Patches between objects, or between arrays, are correct exactly where no key is hidden. -/
theorem patches_correct_iff (before after : Value N) (containers : Containers (.value before) after) :
    Patches before after ↔ ¬ Clash before after := by
  have text := createJsonPatch_eq containers
  constructor
  · rintro ⟨⟨result,ran,same⟩,-⟩
    rw [text,applyPatch_text] at ran
    exact (correct_iff before after).mp ⟨result,ran,same⟩
  · intro free
    obtain ⟨result,ran,same⟩ := (correct_iff before after).mpr free
    refine ⟨⟨result,by rw [text,applyPatch_text,ran],same⟩,fun same => ?_⟩
    rw [text,diff_same same,List.map_nil]

/-- A member goes and one comes, under a key with marks of pointers. -/
theorem patches_correct_marks : Patches (.object [("a",.number (1 : Int))]) (.object [("~/",.number 2)]) := by
  refine (patches_correct_iff _ _ (.inr ⟨_,_,rfl,rfl⟩)).mpr fun clash => ?_
  cases clash with
  | hidden key hides =>
    have same : ∀ key ∈ inheritedNames,
        (get [("a",Value.number (1 : Int))] key).isSome = (get [("~/",Value.number (2 : Int))] key).isSome := by decide
    exact hides.2 (same key hides.1)
  | member key found found' below =>
    have own := mem_keys.mpr ⟨_,found⟩
    have own' := mem_keys.mpr ⟨_,found'⟩
    simp [keys] at own own'
    rw [own] at own'
    exact absurd own' (by decide)

/-- A member named `toString` goes. -/
def named : Value Int := .object [("toString",.number 1)]

/-- The empty object seems to have it. -/
theorem named_stays : ¬ Patches named (.object []) := by
  rintro ⟨⟨result,ran,same⟩,-⟩
  have containers : Containers (.value named) (.object []) := .inr ⟨_,_,rfl,rfl⟩
  rw [createJsonPatch_eq containers,applyPatch_text] at ran
  refine (correct_iff named (.object [])).mp ⟨result,ran,same⟩ (.hidden "toString" ⟨by decide,?_⟩)
  decide

end StellarAlerts.StatePatches
