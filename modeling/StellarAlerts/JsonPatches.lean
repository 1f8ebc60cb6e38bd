import Mathlib.Data.List.Dedup
import Mathlib.Data.List.Induction

/-!
JSON documents and the patches of RFC 6902, with the pointers of RFC 6901. Operations
below one key do to the object what they do to the slot of the key (`applyAll_under`),
and those of several keys do so slot by slot (`applyAll_slots`).
-/
namespace StellarAlerts.JsonPatches
universe u
variable {N : Type u}

/-- A document; what its numbers are is left open. -/
inductive Value (N : Type u) where
  | null
  | bool (b : Bool)
  | number (n : N)
  | string (s : String)
  | array (items : List (Value N))
  | object (members : List (String × Value N))

abbrev Members (N : Type u) := List (String × Value N)
def get (members : Members N) (key : String) : Option (Value N) := (members.find? fun e => e.1 = key).map Prod.snd

/-- The names, each once. -/
def keys (members : Members N) : List String := (members.map Prod.fst).dedup

def erase (members : Members N) (key : String) : Members N := members.filter fun e => e.1 ≠ key
def set (members : Members N) (key : String) (v : Value N) : Members N := (key,v) :: erase members key

/-- What is under a key, or that there is nothing. -/
def put (members : Members N) (key : String) : Option (Value N) → Members N
  | some v => set members key v
  | none => erase members key

theorem mem_keys {members : Members N} {key : String} : key ∈ keys members ↔ ∃ v, get members key = some v := by
  rw [keys,List.mem_dedup,List.mem_map]
  constructor
  · rintro ⟨e,listed,rfl⟩
    obtain ⟨found,is⟩ := Option.isSome_iff_exists.mp (List.find?_isSome.mpr ⟨e,listed,by simp⟩ :
      (members.find? fun e' => e'.1 = e.1).isSome = true)
    exact ⟨found.2,by rw [get,is,Option.map_some]⟩
  · rintro ⟨v,found⟩
    obtain ⟨e,is,rfl⟩ := Option.map_eq_some_iff.mp found
    exact ⟨e,List.mem_of_find?_eq_some is,by simpa using List.find?_some is⟩

theorem nodup_keys (members : Members N) : (keys members).Nodup := List.nodup_dedup _

theorem get_erase (members : Members N) (key key' : String) :
    get (erase members key) key' = if key' = key then none else get members key' := by
  rw [get,erase,List.find?_filter]
  by_cases same : key' = key
  · subst same
    simp
  · rw [if_neg same,get]
    congr 2
    funext e
    by_cases own : e.1 = key'
    · simp [own,same]
    · simp [own]

theorem get_put (members : Members N) (key key' : String) (slot : Option (Value N)) :
    get (put members key slot) key' = if key' = key then slot else get members key' := by
  cases slot with
  | none => exact get_erase members key key'
  | some v =>
    have behind := get_erase members key key'
    rw [put,set,get,List.find?_cons]
    by_cases same : key' = key
    · simp [same]
    · have other : ¬ key = key' := fun is => same is.symm
      rw [get] at behind
      simp [same,other,behind]

theorem sizeOf_get {members : Members N} {key : String} {v : Value N} (found : get members key = some v) :
    sizeOf v < sizeOf (Value.object members) := by
  obtain ⟨e,is,rfl⟩ := Option.map_eq_some_iff.mp found
  have member := List.sizeOf_lt_of_mem (List.mem_of_find?_eq_some is)
  obtain ⟨name,v⟩ := e
  simp only [Prod.mk.sizeOf_spec] at member
  simp only [Value.object.sizeOf_spec]
  omega

/-- The same up to the order of members. -/
inductive Same : Value N → Value N → Prop where
  | null : Same .null .null
  | bool (b : Bool) : Same (.bool b) (.bool b)
  | number (n : N) : Same (.number n) (.number n)
  | string (s : String) : Same (.string s) (.string s)
  | array {items items' : List (Value N)} (length : items.length = items'.length)
      (each : ∀ (i : Nat) (v v' : Value N), items[i]? = some v → items'[i]? = some v' → Same v v') : Same (.array items) (.array items')
  | object {members members' : Members N} (names : ∀ key, get members key = none ↔ get members' key = none)
      (each : ∀ key (v v' : Value N), get members key = some v → get members' key = some v' → Same v v') :
      Same (.object members) (.object members')

theorem same_refl (v : Value N) : Same v v := by
  match v with
  | .null => exact .null
  | .bool b => exact .bool b
  | .number n => exact .number n
  | .string s => exact .string s
  | .array items =>
    refine .array rfl fun i v v' is is' => ?_
    obtain rfl := Option.some.inj (is.symm.trans is')
    have smaller := List.sizeOf_lt_of_mem (List.mem_of_getElem? is)
    exact same_refl v
  | .object members =>
    refine .object (fun _ => Iff.rfl) fun key v v' is is' => ?_
    obtain rfl := Option.some.inj (is.symm.trans is')
    have smaller := sizeOf_get is
    exact same_refl v
termination_by sizeOf v
decreasing_by
  · simp only [Value.array.sizeOf_spec]
    omega
  · exact smaller

inductive Edit (N : Type u) where
  | add (v : Value N)
  | remove
  | replace (v : Value N)

/-- An edit at a path: the tokens of a pointer, or its text. -/
structure Operation (N : Type u) (P : Type := List String) where
  path : P
  edit : Edit N

def Operation.map {P Q : Type} (f : P → Q) (operation : Operation N P) : Operation N Q := ⟨f operation.path,operation.edit⟩

/-- What is left under a key; what is removed or replaced must be there. -/
def Edit.slot : Edit N → Option (Value N) → Option (Option (Value N))
  | .add v, _ => some (some v)
  | .remove, some _ => some none
  | .replace v, some _ => some (some v)
  | _, none => none

/-- The place in an array that a token is the text of. -/
def index (size : Nat) (token : String) : Option Nat := (List.range size).find? fun i => toString i = token

/-- What is left of the items; an item may be added behind the last, which `-` stands for. -/
def Edit.items (edit : Edit N) (items : List (Value N)) (token : String) : Option (List (Value N)) :=
  match edit with
  | .add v => if token = "-" then some (items ++ [v]) else (index (items.length + 1) token).map fun i => items.insertIdx i v
  | .remove => (index items.length token).map fun i => items.eraseIdx i
  | .replace v => (index items.length token).map fun i => items.set i v

/-- The document in place of the whole one. -/
def Edit.whole : Edit N → Option (Value N)
  | .add v => some v
  | .replace v => some v
  | .remove => none

/-- One operation; none where its target is not there. -/
def applyAt (edit : Edit N) : List String → Value N → Option (Value N)
  | [], _ => edit.whole
  | token :: rest, .object members =>
    (if rest = [] then edit.slot (get members token)
      else (get members token).bind fun v => (applyAt edit rest v).map some).map fun slot => .object (put members token slot)
  | token :: rest, .array items =>
    if rest = [] then (edit.items items token).map .array
    else (index items.length token).bind fun i => items[i]?.bind fun v => (applyAt edit rest v).map fun v' => .array (items.set i v')
  | _ :: _, _ => none

def applyAll (operations : List (Operation N)) (doc : Value N) : Option (Value N) :=
  operations.foldlM (fun doc operation => applyAt operation.edit operation.path doc) doc

theorem applyAll_cons (operation : Operation N) (operations : List (Operation N)) (doc : Value N) :
    applyAll (operation :: operations) doc = (applyAt operation.edit operation.path doc).bind (applyAll operations) := by
  rw [applyAll,List.foldlM_cons]
  rfl

theorem applyAll_append (first second : List (Operation N)) (doc : Value N) :
    applyAll (first ++ second) doc = (applyAll first doc).bind (applyAll second) := by
  rw [applyAll,List.foldlM_append]
  rfl

def Operation.under (token : String) (operation : Operation N) : Operation N := operation.map (token :: ·)

/-- Within a value that stays: what replaces it may, nothing is added or removed in its place. -/
def Operation.Inner (operation : Operation N) : Prop := operation.path = [] → ∃ v, operation.edit = .replace v

/-- What an operation does to what is under a key. -/
def slotAt (edit : Edit N) (path : List String) (slot : Option (Value N)) : Option (Option (Value N)) :=
  if path = [] then edit.slot slot else slot.bind fun v => (applyAt edit path v).map some

def slotAll (operations : List (Operation N)) (slot : Option (Value N)) : Option (Option (Value N)) :=
  operations.foldlM (fun slot operation => slotAt operation.edit operation.path slot) slot

theorem applyAt_object (edit : Edit N) (token : String) (path : List String) (members : Members N) :
    applyAt edit (token :: path) (.object members) =
      (slotAt edit path (get members token)).map fun slot => .object (put members token slot) := rfl

theorem slotAll_cons (operation : Operation N) (operations : List (Operation N)) (slot : Option (Value N)) :
    slotAll (operation :: operations) slot = (slotAt operation.edit operation.path slot).bind (slotAll operations) := by
  rw [slotAll,List.foldlM_cons]
  rfl

theorem slotAll_some {operations : List (Operation N)} (inner : ∀ operation ∈ operations, operation.Inner) (v : Value N) :
    slotAll operations (some v) = (applyAll operations v).map some := by
  induction operations generalizing v with
  | nil => rfl
  | cons operation later ih =>
    have others := ih fun operation' listed => inner operation' (List.mem_cons_of_mem _ listed)
    have one : slotAt operation.edit operation.path (some v) = (applyAt operation.edit operation.path v).map some := by
      obtain ⟨path,edit⟩ := operation
      cases path with
      | nil =>
        obtain ⟨w,rfl⟩ : ∃ w, edit = .replace w := inner _ List.mem_cons_self rfl
        rfl
      | cons token rest => simp [slotAt]
    rw [slotAll_cons,applyAll_cons,one]
    cases applyAt operation.edit operation.path v with
    | none => rfl
    | some v' => exact others v'

theorem slotAll_none {operations : List (Operation N)} (inner : ∀ operation ∈ operations, operation.Inner) :
    slotAll operations none = if operations.isEmpty then some none else none := by
  cases operations with
  | nil => rfl
  | cons operation later =>
    have fails : slotAt operation.edit operation.path none = none := by
      obtain ⟨path,edit⟩ := operation
      cases path with
      | nil =>
        obtain ⟨w,rfl⟩ : ∃ w, edit = .replace w := inner _ List.mem_cons_self rfl
        rfl
      | cons token rest => simp [slotAt]
    rw [slotAll_cons,fails]
    rfl

/-- Operations below a key change what is under the key. -/
theorem applyAll_under (members : Members N) (token : String) (operations : List (Operation N)) :
    (∀ slot, slotAll operations (get members token) = some slot →
      ∃ members', applyAll (operations.map (Operation.under token)) (.object members) = some (.object members') ∧
        ∀ key, get members' key = if key = token then slot else get members key) ∧
    (slotAll operations (get members token) = none →
      applyAll (operations.map (Operation.under token)) (.object members) = none) := by
  induction operations generalizing members with
  | nil =>
    refine ⟨fun slot is => ⟨members,rfl,fun key => ?_⟩,fun is => nomatch is⟩
    split
    · rename_i own
      rw [own,Option.some.inj is]
    · rfl
  | cons operation later ih =>
    rw [slotAll_cons,List.map_cons,applyAll_cons]
    have one : applyAt (operation.under token).edit (operation.under token).path (.object members) =
        (slotAt operation.edit operation.path (get members token)).map fun slot => .object (put members token slot) :=
      applyAt_object _ _ _ _
    rw [one]
    cases slotAt operation.edit operation.path (get members token) with
    | none => exact ⟨fun slot is => (nomatch is),fun _ => rfl⟩
    | some slot' =>
      obtain ⟨ran,failed⟩ := ih (put members token slot')
      rw [get_put,if_pos rfl] at ran failed
      refine ⟨fun slot is => ?_,failed⟩
      obtain ⟨members',applied,slots⟩ := ran slot is
      refine ⟨members',applied,fun key => ?_⟩
      rw [slots,get_put]
      split <;> rfl

section Slots
variable {names : List String} {operations : String → List (Operation N)} {members : Members N}

theorem applyAll_slots (distinct : names.Nodup) {slots : String → Option (Value N)}
    (run : ∀ key ∈ names, slotAll (operations key) (get members key) = some (slots key)) :
    ∃ members', applyAll (names.flatMap fun key => (operations key).map (Operation.under key)) (.object members) =
        some (.object members') ∧
      ∀ key, get members' key = if key ∈ names then slots key else get members key := by
  induction names generalizing members with
  | nil => exact ⟨members,rfl,fun key => by simp⟩
  | cons name later ih =>
    obtain ⟨fresh,distinct'⟩ := List.nodup_cons.mp distinct
    obtain ⟨first,applied,changed⟩ := (applyAll_under members name (operations name)).1 _ (run name List.mem_cons_self)
    have behind : ∀ key ∈ later, slotAll (operations key) (get first key) = some (slots key) := by
      intro key listed
      have other : key ≠ name := fun same => fresh (same ▸ listed)
      rw [changed,if_neg other]
      exact run key (List.mem_cons_of_mem _ listed)
    obtain ⟨members',applied',changed'⟩ := ih distinct' behind
    refine ⟨members',by rw [List.flatMap_cons,applyAll_append,applied,Option.bind_some,applied'],fun key => ?_⟩
    rw [changed',changed]
    by_cases own : key = name
    · subst own
      simp [fresh]
    · simp [own]

theorem applyAll_slots_none (distinct : names.Nodup) {key : String} (listed : key ∈ names)
    (fails : slotAll (operations key) (get members key) = none) :
    applyAll (names.flatMap fun key => (operations key).map (Operation.under key)) (.object members) = none := by
  induction names generalizing members with
  | nil => cases listed
  | cons name later ih =>
    obtain ⟨fresh,distinct'⟩ := List.nodup_cons.mp distinct
    rw [List.flatMap_cons,applyAll_append]
    obtain ⟨ran,failed⟩ := applyAll_under members name (operations name)
    cases first : slotAll (operations name) (get members name) with
    | none => rw [failed first,Option.bind_none]
    | some slot =>
      obtain ⟨members',applied,changed⟩ := ran slot first
      have other : key ≠ name := by
        rintro rfl
        rw [fails] at first
        cases first
      rw [applied,Option.bind_some]
      refine ih distinct' ((List.mem_cons.mp listed).resolve_left other) ?_
      rw [changed,if_neg other,fails]

end Slots

theorem toString_inj {i j : Nat} (same : toString i = toString j) : i = j := by
  have digits : Nat.toDigits 10 i = Nat.toDigits 10 j := by
    rw [← Nat.toList_repr,← Nat.toList_repr]
    exact congrArg String.toList same
  rw [← @Nat.ofDigitChars_toDigits 10 i (by decide) (by decide),digits,Nat.ofDigitChars_toDigits (by decide) (by decide)]

theorem index_toString {size i : Nat} (within : i < size) : index size (toString i) = some i := by
  rw [index,List.find?_eq_some_iff_getElem]
  refine ⟨by simp,i,by simpa using within,by simp,fun j before => ?_⟩
  simp only [List.getElem_range,Bool.not_eq_true',decide_eq_false_iff_not]
  intro same
  exact absurd (toString_inj same) (by omega)

/-- Inner operations below the text of a place do to the array what they do to the item. -/
theorem applyAll_item {operations : List (Operation N)} (inner : ∀ operation ∈ operations, operation.Inner)
    (before behind : List (Value N)) (v : Value N) :
    applyAll (operations.map (Operation.under (toString before.length))) (.array (before ++ v :: behind)) =
      (applyAll operations v).map fun v' => .array (before ++ v' :: behind) := by
  induction operations generalizing v with
  | nil => rfl
  | cons operation later ih =>
    have others := ih fun operation' listed => inner operation' (List.mem_cons_of_mem _ listed)
    have place : index (before ++ v :: behind).length (toString before.length) = some before.length := index_toString (by simp)
    have one : applyAt (operation.under (toString before.length)).edit (operation.under (toString before.length)).path
        (.array (before ++ v :: behind)) =
          (applyAt operation.edit operation.path v).map fun v' => .array (before ++ v' :: behind) := by
      obtain ⟨path,edit⟩ := operation
      cases path with
      | nil =>
        obtain ⟨w,rfl⟩ : ∃ w, edit = .replace w := inner _ List.mem_cons_self rfl
        show ((Edit.replace w).items (before ++ v :: behind) (toString before.length)).map Value.array = _
        simp only [Edit.items,place,Option.map_some]
        simp [applyAt,Edit.whole]
      | cons token rest =>
        show ((index (before ++ v :: behind).length (toString before.length)).bind fun i => (before ++ v :: behind)[i]?.bind fun w =>
          (applyAt edit (token :: rest) w).map fun v' => Value.array ((before ++ v :: behind).set i v')) = _
        rw [place,Option.bind_some]
        simp
    rw [List.map_cons,applyAll_cons,one,applyAll_cons]
    cases applyAt operation.edit operation.path v with
    | none => rfl
    | some v' => exact others v'

theorem applyAll_removes (kept dropped : List (Value N)) :
    applyAll ((List.range' kept.length dropped.length).reverse.map fun i => ⟨[toString i],.remove⟩) (.array (kept ++ dropped)) =
      some (.array kept) := by
  induction dropped using List.reverseRecOn with
  | nil => simp [applyAll]
  | append_singleton dropped v ih =>
    have place : index (kept ++ (dropped ++ [v])).length (toString (kept.length + dropped.length)) =
        some (kept.length + dropped.length) := index_toString (by simp)
    have erased : (kept ++ (dropped ++ [v])).eraseIdx (kept.length + dropped.length) = kept ++ dropped := by
      rw [← List.append_assoc,List.eraseIdx_append_of_length_le (by simp)]
      simp
    have first : applyAt (.remove : Edit N) [toString (kept.length + dropped.length)] (.array (kept ++ (dropped ++ [v]))) =
        some (.array (kept ++ dropped)) := by
      simp only [applyAt,if_true,Edit.items,place,Option.map_some,erased]
    rw [List.length_append,List.length_singleton,List.range'_concat,List.reverse_append,List.map_append,List.reverse_singleton,
      List.map_singleton,List.singleton_append,applyAll_cons,Nat.one_mul,first,Option.bind_some,ih]

theorem applyAll_adds (kept added : List (Value N)) :
    applyAll ((added.zipIdx kept.length).map fun item => ⟨[toString item.2],.add item.1⟩) (.array kept) =
      some (.array (kept ++ added)) := by
  induction added generalizing kept with
  | nil => simp [applyAll]
  | cons v later ih =>
    have place : index (kept.length + 1) (toString kept.length) = some kept.length := index_toString (by simp)
    have digits : toString kept.length ≠ "-" := by
      intro dash
      have digit := Nat.isDigit_of_mem_toDigits (b := 10) (n := kept.length) (c := '-') (by decide) (by decide)
        (by rw [← Nat.toList_repr]; exact (congrArg String.toList dash).symm ▸ (by decide))
      exact absurd digit (by decide)
    have first : applyAt (.add v : Edit N) [toString kept.length] (.array kept) = some (.array (kept ++ [v])) := by
      simp only [applyAt,if_true,Edit.items,if_neg digits,place,Option.map_some,List.insertIdx_length_self]
    have behind := ih (kept ++ [v])
    rw [List.length_append,List.length_singleton] at behind
    rw [List.zipIdx_cons,List.map_cons,applyAll_cons,first,Option.bind_some,behind,List.append_assoc,List.singleton_append]

def escapeChar (c : Char) : List Char :=
  if c = '~' then ['~','0']
  else if c = '/' then ['~','1']
  else [c]

/-- The text of a token within a pointer. -/
def escape (token : String) : List Char := token.toList.flatMap escapeChar

/-- What a part of a pointer stands for; a tilde is the first of two characters. -/
def unescape : List Char → Option (List Char)
  | [] => some []
  | '~' :: '0' :: rest => (unescape rest).map ('~' :: ·)
  | '~' :: '1' :: rest => (unescape rest).map ('/' :: ·)
  | '~' :: _ => none
  | c :: rest => (unescape rest).map (c :: ·)

def pointerText (tokens : List String) : String := String.ofList (tokens.flatMap fun token => '/' :: escape token)

def readPointer (text : String) : Option (List String) :=
  if text = "" then some []
  else
    match text.toList.splitOn '/' with
    | [] :: parts => parts.mapM fun part => (unescape part).map String.ofList
    | _ => none

theorem unescape_escape (word : List Char) : unescape (word.flatMap escapeChar) = some word := by
  induction word with
  | nil => rfl
  | cons c later ih =>
    rw [List.flatMap_cons,escapeChar]
    by_cases tilde : c = '~'
    · subst tilde
      simp [unescape,ih]
    by_cases slash : c = '/'
    · subst slash
      simp [unescape,ih]
    · rw [if_neg tilde,if_neg slash,List.singleton_append]
      simp [unescape,ih,tilde]

theorem slash_not_mem_escape (token : String) : '/' ∉ escape token := by
  intro listed
  obtain ⟨c,-,member⟩ := List.mem_flatMap.mp listed
  rw [escapeChar] at member
  split at member
  · simp at member
  · split at member
    · simp at member
    · rename_i slash
      exact slash (List.mem_singleton.mp member).symm

theorem intercalate_cons (sep : Char) (word : List Char) (words : List (List Char)) :
    [sep].intercalate (word :: words) = word ++ words.flatMap (sep :: ·) := by
  induction words generalizing word with
  | nil => simp
  | cons next later ih => simp [ih]

theorem readPointer_text (tokens : List String) : readPointer (pointerText tokens) = some tokens := by
  cases tokens with
  | nil => rfl
  | cons token later =>
    have text : (pointerText (token :: later)).toList = ['/'].intercalate ([] :: (token :: later).map escape) := by
      rw [pointerText,String.toList_ofList,List.map_cons,intercalate_cons,List.nil_append,← List.map_cons,List.flatMap_map]
    have some_ : pointerText (token :: later) ≠ "" := by
      intro empty
      have letters := congrArg String.toList empty
      simp [pointerText] at letters
    have parts : ((token :: later).map escape).mapM (fun part => (unescape part).map String.ofList) = some (token :: later) := by
      generalize token :: later = all
      induction all with
      | nil => rfl
      | cons first rest ih => simp [List.mapM_cons,ih,escape,unescape_escape]
    rw [readPointer,if_neg some_,text,List.splitOn_intercalate _ _ (by simp)]
    · exact parts
    · intro part listed
      rcases List.mem_cons.mp listed with rfl | listed
      · exact List.not_mem_nil
      · obtain ⟨token',-,rfl⟩ := List.mem_map.mp listed
        exact slash_not_mem_escape token'

/-- A patch whose pointers are texts. -/
def applyPatch (operations : List (Operation N String)) (doc : Value N) : Option (Value N) :=
  operations.foldlM (fun doc operation => (readPointer operation.path).bind fun path => applyAt operation.edit path doc) doc

theorem applyPatch_text (operations : List (Operation N)) (doc : Value N) :
    applyPatch (operations.map (Operation.map pointerText)) doc = applyAll operations doc := by
  induction operations generalizing doc with
  | nil => rfl
  | cons operation later ih =>
    have one : (readPointer (operation.map pointerText).path).bind (fun path => applyAt operation.edit path doc) =
        applyAt operation.edit operation.path doc := by
      rw [Operation.map,readPointer_text,Option.bind_some]
    rw [List.map_cons,applyPatch,List.foldlM_cons,applyAll_cons]
    show ((readPointer (operation.map pointerText).path).bind fun path => applyAt operation.edit path doc).bind _ = _
    rw [one]
    cases applyAt operation.edit operation.path doc with
    | none => rfl
    | some doc' => exact ih doc'

end StellarAlerts.JsonPatches
