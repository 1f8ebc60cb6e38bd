import StellarAlerts.JsonPatches
import StellarAlerts.ProfileStore
import StellarAlerts.Utf16Text

/-!
The patch from one snapshot to the next. Whether an object has a key is asked with `in`,
which sees what every object inherits; and what is then read of it is no JSON.
-/
namespace StellarAlerts.StateDiff
open JsonPatches
open ProfileStore (inheritedNames)
open Utf16Text (sortTexts)
universe u
variable {N : Type u} [DecidableEq N]

/-- What `object[key]` is where the object has the key. -/
inductive Property (N : Type u) where
  | value (v : Value N)
  /-- a method that is inherited -/
  | function
  /-- what `__proto__` is inherited as -/
  | objectPrototype

def escapePathSegment (segment : String) : String :=
  String.ofList ((segment.toList.flatMap fun c => if c = '~' then ['~','0'] else [c]).flatMap fun c => if c = '/' then ['~','1'] else [c])
def pathFor (parent segment : String) : String := parent ++ "/" ++ escapePathSegment segment

/-- `Object.is` of values that are read apart: no array or object is another. -/
def identical : Property N → Value N → Bool
  | .value .null, .null => true
  | .value (.bool b), .bool b' => b = b'
  | .value (.number n), .number n' => n = n'
  | .value (.string s), .string s' => s = s'
  | _, _ => false

/-- `Object.keys` of what is an object and no array. -/
def Property.ownKeys : Property N → Option (List String)
  | .value (.object members) => some (keys members)
  | .objectPrototype => some []
  | _ => none

def Property.items : Property N → Option (List (Value N))
  | .value (.array items) => some items
  | _ => none

/-- `key in object`. -/
def hasKey (members : Members N) (key : String) : Bool := (get members key).isSome || key ∈ inheritedNames

def inherited (key : String) : Option (Property N) :=
  if key = "__proto__" then some .objectPrototype
  else if key ∈ inheritedNames then some .function
  else none

/-- `object[key]`, if `key in object`. The prototype of the prototype is `null`. -/
def Property.read : Property N → String → Option (Property N)
  | .value (.object members), key =>
    match get members key with
    | some v => some (.value v)
    | none => inherited key
  | .objectPrototype, key => if key = "__proto__" then some (.value .null) else inherited key
  | _, _ => none

section Patch
variable {P : Type} (child : P → String → P) (whole : P → P)

/-- The indices behind the last one, from the end on. -/
def removeItems (before after : List (Value N)) (parentPath : P) : List (Operation N P) :=
  (List.range' after.length (before.length - after.length)).reverse.map fun i => ⟨child parentPath (toString i),.remove⟩

def addItems (before after : List (Value N)) (parentPath : P) : List (Operation N P) :=
  ((after.drop before.length).zipIdx before.length).map fun item => ⟨child parentPath (toString item.2),.add item.1⟩
def removeKeys (beforeKeys : List String) (after : Members N) (parentPath : P) : List (Operation N P) :=
  ((sortTexts beforeKeys).filter fun key => !hasKey after key).map fun key => ⟨child parentPath key,.remove⟩

mutual

def patchWith (before : Option (Property N)) (after : Value N) (parentPath : P) : List (Operation N P) :=
  match before with
  | none => [⟨whole parentPath,.add after⟩]
  | some before =>
    if identical before after then []
    else
      match after with
      | .array items =>
        match before.items with
        | some beforeItems =>
          patchItems 0 beforeItems items parentPath ++ removeItems child beforeItems items parentPath ++
            addItems child beforeItems items parentPath
        | none => [⟨whole parentPath,.replace after⟩]
      | .object members =>
        match before.ownKeys with
        | some beforeKeys =>
          removeKeys child beforeKeys members parentPath ++
            (sortTexts (keys members)).flatMap fun key =>
              match _found : get members key with
              | none => []
              | some v =>
                match before.read key with
                | none => [⟨child parentPath key,.add v⟩]
                | some inner => patchWith (some inner) v (child parentPath key)
        | none => [⟨whole parentPath,.replace after⟩]
      | _ => [⟨whole parentPath,.replace after⟩]
termination_by sizeOf after
decreasing_by
  · simp only [Value.array.sizeOf_spec]
    omega
  · exact sizeOf_get ‹_›

/-- The shared indices. -/
def patchItems (i : Nat) (before after : List (Value N)) (parentPath : P) : List (Operation N P) :=
  match before, after with
  | v :: before, v' :: after =>
    patchWith (some (.value v)) v' (child parentPath (toString i)) ++ patchItems (i + 1) before after parentPath
  | _, _ => []
termination_by sizeOf after

end

end Patch

def createJsonPatch (before : Option (Property N)) (after : Value N) (parentPath : String) : List (Operation N String) :=
  patchWith pathFor (fun parent => if parent = "" then "/" else parent) before after parentPath

section Equations
variable {P : Type} {child : P → String → P} {whole : P → P} (before : Property N) (parent : P)

theorem patchWith_array (items : List (Value N)) : patchWith child whole (some before) (.array items) parent =
    match before.items with
    | some beforeItems =>
      patchItems child whole 0 beforeItems items parent ++ removeItems child beforeItems items parent ++
        addItems child beforeItems items parent
    | none => [⟨whole parent,.replace (.array items)⟩] := by
  have other : identical before (.array items) = false := by cases before <;> simp [identical]
  rw [patchWith,other]
  rfl

def memberPatch (child : P → String → P) (whole : P → P) (before : Property N) (members : Members N) (parent : P) (key : String) :
    List (Operation N P) :=
  match get members key with
  | none => []
  | some v =>
    match before.read key with
    | none => [⟨child parent key,.add v⟩]
    | some inner => patchWith child whole (some inner) v (child parent key)

theorem patchWith_object (members : Members N) : patchWith child whole (some before) (.object members) parent =
    match before.ownKeys with
    | some beforeKeys =>
      removeKeys child beforeKeys members parent ++ (sortTexts (keys members)).flatMap (memberPatch child whole before members parent)
    | none => [⟨whole parent,.replace (.object members)⟩] := by
  have other : identical before (.object members) = false := by cases before <;> simp [identical]
  rw [patchWith,other]
  have same : ∀ key, (match _found : get members key with
      | none => []
      | some v =>
        match before.read key with
        | none => [⟨child parent key,.add v⟩]
        | some inner => patchWith child whole (some inner) v (child parent key)) = memberPatch child whole before members parent key := by
    intro key
    rw [memberPatch]
    split <;> simp [*]
  simp only [same]
  rfl

theorem patchWith_leaf {after : Value N} (noArray : ∀ items, after ≠ .array items) (noObject : ∀ members, after ≠ .object members) :
    patchWith child whole (some before) after parent =
      if identical before after then [] else [⟨whole parent,.replace after⟩] := by
  cases after with
  | array items => exact absurd rfl (noArray items)
  | object members => exact absurd rfl (noObject members)
  | null => rw [patchWith] <;> simp
  | bool b => rw [patchWith] <;> simp
  | number n => rw [patchWith] <;> simp
  | string s => rw [patchWith] <;> simp

end Equations

theorem escapePathSegment_eq (segment : String) : escapePathSegment segment = String.ofList (escape segment) := by
  rw [escapePathSegment,escape,List.flatMap_assoc]
  congr 1
  refine List.flatMap_congr fun c _ => ?_
  rw [escapeChar]
  by_cases tilde : c = '~'
  · subst tilde
    rfl
  · by_cases slash : c = '/'
    · subst slash
      rfl
    · simp [tilde,slash]

theorem pathFor_text (tokens : List String) (token : String) : pathFor (pointerText tokens) token = pointerText (tokens ++ [token]) := by
  rw [← String.toList_inj,pathFor,escapePathSegment_eq]
  simp [pointerText]

/-- Two arrays, or two objects. -/
def Containers (before : Property N) (after : Value N) : Prop :=
  (∃ items items', before = .value (.array items) ∧ after = .array items') ∨
    ∃ members members', before = .value (.object members) ∧ after = .object members'

section Naturality
variable {P Q : Type} {child : P → String → P} {whole : P → P} {child' : Q → String → Q} {whole' : Q → Q} {f : P → Q}

theorem patchItems_map (children : ∀ parent token, f (child parent token) = child' (f parent) token) {after : List (Value N)}
    (each : ∀ v' ∈ after, ∀ (v : Value N) parent token, patchWith child' whole' (some (.value v)) v' (f (child parent token)) =
      (patchWith child whole (some (.value v)) v' (child parent token)).map (Operation.map f))
    (i : Nat) (before : List (Value N)) (parent : P) :
    patchItems child' whole' i before after (f parent) = (patchItems child whole i before after parent).map (Operation.map f) := by
  induction after generalizing i before with
  | nil => cases before <;> simp [patchItems]
  | cons v' later ih =>
    cases before with
    | nil => simp [patchItems]
    | cons v before =>
      rw [patchItems,patchItems,List.map_append,← children,each v' List.mem_cons_self,
        ih fun w listed => each w (List.mem_cons_of_mem _ listed)]

theorem leaf_map {before : Property N} {after : Value N} {parent : P}
    (here : Containers before after ∨ f (whole parent) = whole' (f parent))
    (noArray : ∀ items, after ≠ .array items) (noObject : ∀ members, after ≠ .object members) :
    patchWith child' whole' (some before) after (f parent) =
      (patchWith child whole (some before) after parent).map (Operation.map f) := by
  have same : f (whole parent) = whole' (f parent) := by
    refine here.resolve_left fun both => ?_
    rcases both with ⟨_,items,-,is⟩ | ⟨_,members,-,is⟩
    · exact absurd is (noArray items)
    · exact absurd is (noObject members)
  rw [patchWith_leaf before _ noArray noObject,patchWith_leaf before _ noArray noObject]
  split
  · rfl
  · simp [Operation.map,same]

omit [DecidableEq N] in
theorem loops_map (children : ∀ parent token, f (child parent token) = child' (f parent) token) (parent : P) :
    (∀ before after : List (Value N),
      removeItems child' before after (f parent) = (removeItems child before after parent).map (Operation.map f) ∧
      addItems child' before after (f parent) = (addItems child before after parent).map (Operation.map f)) ∧
    ∀ (beforeKeys : List String) (after : Members N),
      removeKeys child' beforeKeys after (f parent) = (removeKeys child beforeKeys after parent).map (Operation.map f) := by
  refine ⟨fun before after => ⟨?_,?_⟩,fun beforeKeys after => ?_⟩
  · simp [removeItems,Function.comp_def,Operation.map,children]
  · simp [addItems,Function.comp_def,Operation.map,children]
  · simp [removeKeys,Function.comp_def,Operation.map,children]

theorem patchWith_map (children : ∀ parent token, f (child parent token) = child' (f parent) token)
    (wholes : ∀ parent token, f (whole (child parent token)) = whole' (f (child parent token)))
    (before : Property N) (after : Value N) (parent : P) (here : Containers before after ∨ f (whole parent) = whole' (f parent)) :
    patchWith child' whole' (some before) after (f parent) =
      (patchWith child whole (some before) after parent).map (Operation.map f) := by
  obtain ⟨ofItems,ofKeys⟩ := @loops_map N P Q child child' f children parent
  cases after with
  | array items =>
    rw [patchWith_array,patchWith_array]
    cases is : before.items with
    | none =>
      have same : f (whole parent) = whole' (f parent) := by
        refine here.resolve_left fun both => ?_
        rcases both with ⟨_,_,own,-⟩ | ⟨_,_,-,other⟩
        · rw [own] at is
          cases is
        · cases other
      simp [Operation.map,same]
    | some beforeItems =>
      have each : ∀ v' ∈ items, ∀ (v : Value N) parent token, patchWith child' whole' (some (.value v)) v' (f (child parent token)) =
          (patchWith child whole (some (.value v)) v' (child parent token)).map (Operation.map f) := by
        intro v' listed v parent token
        have smaller := List.sizeOf_lt_of_mem listed
        exact patchWith_map children wholes (.value v) v' (child parent token) (.inr (wholes parent token))
      simp only [List.map_append,patchItems_map children each,ofItems]
  | object members =>
    rw [patchWith_object,patchWith_object]
    cases is : before.ownKeys with
    | none =>
      have same : f (whole parent) = whole' (f parent) := by
        refine here.resolve_left fun both => ?_
        rcases both with ⟨_,_,-,other⟩ | ⟨_,_,own,-⟩
        · cases other
        · rw [own] at is
          cases is
      simp [Operation.map,same]
    | some beforeKeys =>
      have each : ∀ key, memberPatch child' whole' before members (f parent) key =
          (memberPatch child whole before members parent key).map (Operation.map f) := by
        intro key
        rw [memberPatch,memberPatch]
        cases found : get members key with
        | none => rfl
        | some v =>
          cases before.read key with
          | none => simp [Operation.map,children]
          | some inner =>
            have smaller := sizeOf_get found
            simp only
            rw [← children]
            exact patchWith_map children wholes inner v (child parent key) (.inr (wholes parent key))
      have all := funext each
      simp only [List.map_append,ofKeys,List.map_flatMap,all]
  | null => exact leaf_map here (by simp) (by simp)
  | bool b => exact leaf_map here (by simp) (by simp)
  | number n => exact leaf_map here (by simp) (by simp)
  | string s => exact leaf_map here (by simp) (by simp)
termination_by sizeOf after

end Naturality

end StellarAlerts.StateDiff
