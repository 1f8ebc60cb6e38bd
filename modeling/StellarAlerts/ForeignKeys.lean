import Mathlib.Data.List.Basic

/-!
Tables with foreign keys. Rows that are deleted one set after the other are gone as if
they were deleted at once (`removed_removed`), and what is left refers to rows that are
there (`removed_integral`).
-/
namespace StellarAlerts.ForeignKeys
universe u v w

structure Row (Table : Type u) (Column : Type v) (Data : Type w) where
  table : Table
  value : Column → Option String
  data : Data

inductive Action where
  | cascade
  | restrict
  | setNull
deriving DecidableEq, Repr

structure ForeignKey (Table : Type u) (Column : Type v) where
  child : Table
  column : Column
  parent : Table
  key : Column
  onDelete : Action
deriving DecidableEq

variable {Table : Type u} {Column : Type v} {Data : Type w} [DecidableEq Table]

def ForeignKey.refers (fk : ForeignKey Table Column) (r p : Row Table Column Data) : Bool :=
  r.table = fk.child && p.table = fk.parent && (r.value fk.column).isSome && r.value fk.column = p.value fk.key

theorem refers_iff {fk : ForeignKey Table Column} {r p : Row Table Column Data} : fk.refers r p = true ↔
    r.table = fk.child ∧ p.table = fk.parent ∧ (r.value fk.column).isSome = true ∧ r.value fk.column = p.value fk.key := by
  simp [ForeignKey.refers,and_assoc]

section Doomed
variable (fks : List (ForeignKey Table Column)) (rows : List (Row Table Column Data))

/-- The row refers to one that goes, by a key of the kind. -/
def follows (action : Action) (gone : Row Table Column Data → Bool) (r : Row Table Column Data) : Bool :=
  fks.any fun fk => fk.onDelete = action && rows.any fun p => gone p && fk.refers r p

def grow (gone : Row Table Column Data → Bool) (r : Row Table Column Data) : Bool := gone r || follows fks rows .cascade gone r

def rounds (chosen : Row Table Column Data → Bool) : Nat → Row Table Column Data → Bool
  | 0 => chosen
  | n + 1 => grow fks rows (rounds chosen n)

/-- After as many rounds as there are rows nothing more goes. -/
def doomed (chosen : Row Table Column Data → Bool) : Row Table Column Data → Bool := rounds fks rows chosen rows.length

variable {fks rows}

variable {r : Row Table Column Data}

theorem follows_iff {action : Action} {gone : Row Table Column Data → Bool} :
    follows fks rows action gone r = true ↔ ∃ fk ∈ fks, fk.onDelete = action ∧ ∃ p ∈ rows, gone p = true ∧ fk.refers r p = true := by
  simp [follows]

theorem follows_mono {action : Action} {gone more : Row Table Column Data → Bool}
    (sub : ∀ p ∈ rows, gone p = true → more p = true) (is : follows fks rows action gone r = true) :
    follows fks rows action more r = true := by
  obtain ⟨fk,listed,kind,p,there,isGone,refers⟩ := follows_iff.mp is
  exact follows_iff.mpr ⟨fk,listed,kind,p,there,sub p there isGone,refers⟩

section Rounds
variable {chosen : Row Table Column Data → Bool}

variable {n : Nat} {r : Row Table Column Data}

theorem rounds_succ : rounds fks rows chosen (n + 1) r = true ↔
    rounds fks rows chosen n r = true ∨ follows fks rows .cascade (rounds fks rows chosen n) r = true := by
  rw [rounds,grow,Bool.or_eq_true]

theorem rounds_le {m : Nat} (le : n ≤ m) (is : rounds fks rows chosen n r = true) : rounds fks rows chosen m r = true := by
  induction le with
  | refl => exact is
  | step _ ih => exact rounds_succ.mpr (.inl ih)

theorem doomed_chosen (is : chosen r = true) : doomed fks rows chosen r = true :=
  rounds_le (Nat.zero_le _) is

/-- Nothing is doomed beyond what every set holds that holds the chosen rows and what goes with its rows. -/
theorem doomed_rec {P : Row Table Column Data → Prop} (first : ∀ r, chosen r = true → P r)
    (next : ∀ fk ∈ fks, fk.onDelete = .cascade → ∀ p ∈ rows, P p → ∀ r, fk.refers r p = true → P r)
    {r : Row Table Column Data} (is : doomed fks rows chosen r = true) : P r := by
  have each : ∀ n r, rounds fks rows chosen n r = true → P r := by
    intro n
    induction n with
    | zero => exact fun r => first r
    | succ n ih =>
      intro r grown
      rcases rounds_succ.mp grown with before | goes
      · exact ih r before
      · obtain ⟨fk,listed,kind,p,there,gone,refers⟩ := follows_iff.mp goes
        exact next fk listed kind p there (ih p gone) r refers
  exact each _ r is

theorem countP_lt {α : Type*} {l : List α} {f g : α → Bool} (sub : ∀ a ∈ l, f a = true → g a = true) {a : α} (listed : a ∈ l)
    (new : g a = true) (old : f a = false) : l.countP f < l.countP g := by
  have twice : l.filter f = (l.filter g).filter f := by
    rw [List.filter_filter]
    refine List.filter_congr fun b among => ?_
    cases is : f b with
    | false => rfl
    | true => rw [sub b among is,Bool.and_self]
  rw [List.countP_eq_length_filter,List.countP_eq_length_filter,twice]
  exact List.length_filter_lt_length_iff_exists.mpr ⟨a,List.mem_filter.mpr ⟨listed,new⟩,by simp [old]⟩

theorem rounds_cases (n : Nat) :
    (∃ m ≤ n, ∀ p ∈ rows, rounds fks rows chosen (m + 1) p = true → rounds fks rows chosen m p = true) ∨
      n ≤ rows.countP (rounds fks rows chosen n) := by
  induction n with
  | zero => exact .inr (Nat.zero_le _)
  | succ n ih =>
    rcases ih with ⟨m,le,still⟩ | many
    · exact .inl ⟨m,Nat.le_succ_of_le le,still⟩
    · by_cases still : ∀ p ∈ rows, rounds fks rows chosen (n + 1) p = true → rounds fks rows chosen n p = true
      · exact .inl ⟨n,Nat.le_succ n,still⟩
      · right
        push Not at still
        obtain ⟨p,there,now,before⟩ := still
        have more : rows.countP (rounds fks rows chosen n) < rows.countP (rounds fks rows chosen (n + 1)) :=
          countP_lt (fun q _ => rounds_le (Nat.le_succ n)) there now (Bool.not_eq_true _ ▸ before)
        omega

variable {p : Row Table Column Data}

theorem rounds_still {m : Nat} (le : m ≤ n)
    (still : ∀ p ∈ rows, rounds fks rows chosen (m + 1) p = true → rounds fks rows chosen m p = true) (there : p ∈ rows)
    (is : rounds fks rows chosen n p = true) : rounds fks rows chosen m p = true := by
  induction le generalizing p with
  | refl => exact is
  | step _ ih =>
    rcases rounds_succ.mp is with before | goes
    · exact ih there before
    · exact still p there (rounds_succ.mpr (.inr (follows_mono (fun q among => ih among) goes)))

theorem doomed_cascade {fk : ForeignKey Table Column} (listed : fk ∈ fks) (kind : fk.onDelete = .cascade) (there : p ∈ rows)
    (gone : doomed fks rows chosen p = true) (among : r ∈ rows) (refers : fk.refers r p = true) :
    doomed fks rows chosen r = true := by
  rcases @rounds_cases _ _ _ _ fks rows chosen rows.length with ⟨m,le,still⟩ | all
  · have before := rounds_still le still there gone
    have goes : rounds fks rows chosen (m + 1) r = true :=
      rounds_succ.mpr (.inr (follows_iff.mpr ⟨fk,listed,kind,p,there,before,refers⟩))
    exact rounds_le le (still r among goes)
  · have every := List.countP_eq_length.mp (Nat.le_antisymm List.countP_le_length all)
    exact every r among

theorem doomed_mono {more : Row Table Column Data → Bool} (sub : ∀ r, chosen r = true → more r = true) {r : Row Table Column Data}
    (among : r ∈ rows) (is : doomed fks rows chosen r = true) : doomed fks rows more r = true := by
  refine @doomed_rec _ _ _ _ fks rows chosen (fun r => r ∈ rows → doomed fks rows more r = true) ?_ ?_ r is among
  · exact fun r first _ => doomed_chosen (sub r first)
  · exact fun fk listed kind p there gone r refers among => doomed_cascade listed kind there (gone there) among refers

/-- A row that no key takes along goes only where it is chosen. -/
theorem doomed_root (root : ∀ fk ∈ fks, fk.onDelete = .cascade → fk.child ≠ r.table) (is : doomed fks rows chosen r = true) :
    chosen r = true := by
  refine @doomed_rec _ _ _ _ fks rows chosen (fun q => q.table = r.table → chosen q = true) ?_ ?_ r is rfl
  · exact fun q first _ => first
  · intro fk listed kind p _ _ q refers same
    exact absurd ((refers_iff.mp refers).1.symm.trans same) (root fk listed kind)

theorem doomed_none : doomed fks rows (fun _ => false) r = false := by
  rw [← Bool.not_eq_true]
  intro goes
  exact @doomed_rec _ _ _ _ fks rows (fun _ => false) (fun _ => False) (fun _ => Bool.false_ne_true)
    (fun _ _ _ _ _ isGone _ _ => isGone) r goes

end Rounds
end Doomed

section Deletion
variable [DecidableEq Column] (fks : List (ForeignKey Table Column)) (rows : List (Row Table Column Data))

def forgets (gone : Row Table Column Data → Bool) (r : Row Table Column Data) (column : Column) : Bool :=
  fks.any fun fk => fk.onDelete = .setNull && fk.column = column && rows.any fun p => gone p && fk.refers r p
def forget (gone : Row Table Column Data → Bool) (r : Row Table Column Data) : Row Table Column Data :=
  { r with value := fun column => if forgets fks rows gone r column then none else r.value column }
def removed (chosen : Row Table Column Data → Bool) : List (Row Table Column Data) :=
  (rows.filter fun r => !doomed fks rows chosen r).map (forget fks rows (doomed fks rows chosen))

/-- A row forbids that one goes. -/
def forbidden (chosen : Row Table Column Data → Bool) : Bool := rows.any fun r => follows fks rows .restrict (doomed fks rows chosen) r

/-- No key of a row is ever set to null, nor a column whose rows go or restrict. -/
structure Tidy : Prop where
  keys : ∀ fk ∈ fks, ∀ other ∈ fks, other.onDelete = .setNull → ¬ (other.child = fk.parent ∧ other.column = fk.key)
  apart : ∀ fk ∈ fks, fk.onDelete ≠ .setNull → ∀ other ∈ fks, other.onDelete = .setNull →
    ¬ (other.child = fk.child ∧ other.column = fk.column)

/-- What a row refers to is there. -/
def Integral : Prop :=
  ∀ fk ∈ fks, ∀ r ∈ rows, r.table = fk.child → (r.value fk.column).isSome = true → ∃ p ∈ rows, fk.refers r p = true

variable {fks rows} {gone chosen : Row Table Column Data → Bool} {r p : Row Table Column Data}

variable {column : Column}

theorem forgets_iff : forgets fks rows gone r column = true ↔
    ∃ fk ∈ fks, fk.onDelete = .setNull ∧ fk.column = column ∧ ∃ p ∈ rows, gone p = true ∧ fk.refers r p = true := by
  simp [forgets,and_assoc]

theorem forget_value (column : Column) :
    (forget fks rows gone r).value column = if forgets fks rows gone r column then none else r.value column := rfl

theorem value_of_forget (some_ : ((forget fks rows gone r).value column).isSome = true) :
    (forget fks rows gone r).value column = r.value column := by
  rw [forget_value] at some_ ⊢
  split
  next lost =>
    rw [if_pos lost] at some_
    cases some_
  next => rfl

theorem forget_kept (kept : ∀ fk ∈ fks, fk.onDelete = .setNull → ¬ (fk.child = r.table ∧ fk.column = column)) :
    (forget fks rows gone r).value column = r.value column := by
  rw [forget_value,if_neg]
  intro lost
  obtain ⟨fk,listed,kind,own,p,_,_,refers⟩ := forgets_iff.mp lost
  exact kept fk listed kind ⟨(refers_iff.mp refers).1.symm,own⟩

omit [DecidableEq Column] in
theorem forbidden_iff (roots : ∀ fk ∈ fks, fk.onDelete = .restrict → ∀ other ∈ fks, other.onDelete = .cascade →
    other.child ≠ fk.parent) : forbidden fks rows chosen = true ↔ ∃ fk ∈ fks, fk.onDelete = .restrict ∧
      ∃ r ∈ rows, ∃ p ∈ rows, chosen p = true ∧ fk.refers r p = true := by
  rw [forbidden,List.any_eq_true]
  constructor
  · rintro ⟨r,there,is⟩
    obtain ⟨fk,listed,kind,p,isThere,goes,refers⟩ := follows_iff.mp is
    have parent := (refers_iff.mp refers).2.1
    exact ⟨fk,listed,kind,r,there,p,isThere,doomed_root (parent ▸ roots fk listed kind) goes,refers⟩
  · rintro ⟨fk,listed,kind,r,there,p,isThere,isChosen,refers⟩
    exact ⟨r,there,follows_iff.mpr ⟨fk,listed,kind,p,isThere,doomed_chosen isChosen,refers⟩⟩

section Tidy
variable (tidy : Tidy fks) {fk : ForeignKey Table Column} (listed : fk ∈ fks)
include tidy listed

theorem forget_key (parent : p.table = fk.parent) : (forget fks rows gone p).value fk.key = p.value fk.key :=
  forget_kept fun other among kind own => tidy.keys fk listed other among kind ⟨own.1.trans parent,own.2⟩

theorem refers_of_forget (refers : fk.refers (forget fks rows gone r) (forget fks rows gone p) = true) : fk.refers r p = true := by
  obtain ⟨child,parent,some_,same⟩ := refers_iff.mp refers
  have isParent : p.table = fk.parent := parent
  rw [forget_key tidy listed isParent,value_of_forget some_] at same
  exact refers_iff.mpr ⟨child,parent,value_of_forget some_ ▸ some_,same⟩

theorem refers_forget (refers : fk.refers r p = true) (kept : forgets fks rows gone r fk.column = false) :
    fk.refers (forget fks rows gone r) (forget fks rows gone p) = true := by
  obtain ⟨child,parent,some_,same⟩ := refers_iff.mp refers
  have value : (forget fks rows gone r).value fk.column = r.value fk.column := by rw [forget_value,kept]; rfl
  refine refers_iff.mpr ⟨child,parent,?_,?_⟩
  · rw [value]
    exact some_
  · rw [value,forget_key tidy listed parent,same]

theorem forgets_apart (kind : fk.onDelete ≠ .setNull) (child : r.table = fk.child) :
    forgets fks rows gone r fk.column = false := by
  rw [← Bool.not_eq_true]
  intro lost
  obtain ⟨other,among,isNull,own,q,_,_,refers⟩ := forgets_iff.mp lost
  exact tidy.apart fk listed kind other among isNull ⟨(refers_iff.mp refers).1.symm.trans child,own⟩

end Tidy

theorem mem_removed {r' : Row Table Column Data} : r' ∈ removed fks rows chosen ↔
    ∃ r ∈ rows, doomed fks rows chosen r = false ∧ forget fks rows (doomed fks rows chosen) r = r' := by
  simp [removed,and_assoc]

theorem forget_eq (kept : ∀ column, forgets fks rows gone r column = true → r.value column = none) : forget fks rows gone r = r := by
  have values : (forget fks rows gone r).value = r.value := by
    funext column
    rw [forget_value]
    split
    next lost => exact (kept column lost).symm
    next => rfl
  exact congrArg (fun value => { r with value }) values

theorem removed_none : removed fks rows (fun _ => false) = rows := by
  have same : ∀ r ∈ rows, forget fks rows (doomed fks rows fun _ => false) r = r := by
    intro r _
    refine forget_eq fun column lost => ?_
    obtain ⟨_,_,_,_,p,_,goes,_⟩ := forgets_iff.mp lost
    rw [doomed_none] at goes
    cases goes
  have all : rows.filter (fun r => !doomed fks rows (fun _ => false) r) = rows :=
    List.filter_eq_self.mpr fun r _ => by rw [doomed_none]; rfl
  rw [removed,all]
  exact (List.map_congr_left same).trans (List.map_id rows)

theorem removed_integral (tidy : Tidy fks) (integral : Integral fks rows) (allowed : forbidden fks rows chosen = false) :
    Integral fks (removed fks rows chosen) := by
  intro fk listed r' among child some_
  obtain ⟨r,there,stays,rfl⟩ := mem_removed.mp among
  have value := value_of_forget some_
  obtain ⟨p,isThere,refers⟩ := integral fk listed r there child (value ▸ some_)
  have staysToo : doomed fks rows chosen p = false := by
    rw [← Bool.not_eq_true]
    intro goes
    cases kind : fk.onDelete with
    | cascade =>
      rw [doomed_cascade listed kind isThere goes there refers] at stays
      cases stays
    | restrict =>
      have restricted := List.any_eq_false.mp allowed r there
      exact restricted (follows_iff.mpr ⟨fk,listed,kind,p,isThere,goes,refers⟩)
    | setNull =>
      have lost : forgets fks rows (doomed fks rows chosen) r fk.column = true :=
        forgets_iff.mpr ⟨fk,listed,kind,rfl,p,isThere,goes,refers⟩
      rw [forget_value,lost] at some_
      cases some_
  have kept : forgets fks rows (doomed fks rows chosen) r fk.column = false := by
    rw [← Bool.not_eq_true]
    intro lost
    rw [forget_value,lost] at some_
    cases some_
  exact ⟨_,mem_removed.mpr ⟨p,isThere,staysToo,rfl⟩,refers_forget tidy listed refers kept⟩

section Twice
variable {first second : Row Table Column Data → Bool}

theorem doomed_twice (tidy : Tidy fks) (stable : ∀ r, second (forget fks rows (doomed fks rows first) r) = second r)
    (among : r ∈ rows) (stays : doomed fks rows first r = false) :
    doomed fks (removed fks rows first) second (forget fks rows (doomed fks rows first) r) = true ↔
      doomed fks rows (fun r => first r || second r) r = true := by
  constructor
  · intro goes
    refine @doomed_rec _ _ _ _ fks (removed fks rows first) second (fun r' => ∀ r ∈ rows,
      forget fks rows (doomed fks rows first) r = r' → doomed fks rows (fun r => first r || second r) r = true) ?_ ?_ _ goes r among rfl
    · rintro r' isChosen r _ rfl
      rw [stable] at isChosen
      exact doomed_chosen (by rw [isChosen,Bool.or_true])
    · rintro fk listed kind p' there gone r' refers r among rfl
      obtain ⟨p,isThere,_,rfl⟩ := mem_removed.mp there
      exact doomed_cascade listed kind isThere (gone p isThere rfl) among (refers_of_forget tidy listed refers)
  · intro goes
    have either := @doomed_rec _ _ _ _ fks rows (fun r => first r || second r) (fun r => r ∈ rows → doomed fks rows first r = true ∨
      doomed fks (removed fks rows first) second (forget fks rows (doomed fks rows first) r) = true) ?_ ?_ r goes among
    · rcases either with before | now
      · rw [before] at stays
        cases stays
      · exact now
    · intro r isChosen _
      rcases Bool.or_eq_true _ _ ▸ isChosen with isFirst | isSecond
      · exact .inl (doomed_chosen isFirst)
      · exact .inr (doomed_chosen (by rw [stable,isSecond]))
    · intro fk listed kind p there gone r refers among
      cases isFirst : doomed fks rows first r with
      | true => exact .inl rfl
      | false =>
        right
        have pStays : doomed fks rows first p = false := by
          rw [← Bool.not_eq_true]
          intro goes
          rw [doomed_cascade listed kind there goes among refers] at isFirst
          cases isFirst
        have pGoes := (gone there).resolve_left (by rw [pStays]; exact Bool.false_ne_true)
        have notNull : fk.onDelete ≠ .setNull := by
          rw [kind]
          decide
        refine doomed_cascade listed kind (mem_removed.mpr ⟨p,there,pStays,rfl⟩) pGoes (mem_removed.mpr ⟨r,among,isFirst,rfl⟩) ?_
        exact refers_forget tidy listed refers (forgets_apart tidy listed notNull (refers_iff.mp refers).1)

theorem forget_twice (tidy : Tidy fks) (stable : ∀ r, second (forget fks rows (doomed fks rows first) r) = second r)
    (r : Row Table Column Data) :
    forget fks (removed fks rows first) (doomed fks (removed fks rows first) second) (forget fks rows (doomed fks rows first) r) =
      forget fks rows (doomed fks rows fun r => first r || second r) r := by
  have values : ∀ column, (forget fks (removed fks rows first) (doomed fks (removed fks rows first) second)
      (forget fks rows (doomed fks rows first) r)).value column =
        (forget fks rows (doomed fks rows fun r => first r || second r) r).value column := by
    intro column
    rw [forget_value,forget_value column,forget_value column]
    cases lost : forgets fks rows (doomed fks rows fun r => first r || second r) r column with
    | true =>
      obtain ⟨fk,listed,kind,own,p,there,gone,refers⟩ := forgets_iff.mp lost
      cases before : forgets fks rows (doomed fks rows first) r column with
      | true => simp
      | false =>
        have pStays : doomed fks rows first p = false := by
          rw [← Bool.not_eq_true]
          intro goes
          rw [forgets_iff.mpr ⟨fk,listed,kind,own,p,there,goes,refers⟩] at before
          cases before
        have pGoes := (doomed_twice tidy stable there pStays).mpr gone
        have now : forgets fks (removed fks rows first) (doomed fks (removed fks rows first) second)
            (forget fks rows (doomed fks rows first) r) column = true := by
          refine forgets_iff.mpr ⟨fk,listed,kind,own,_,mem_removed.mpr ⟨p,there,pStays,rfl⟩,pGoes,?_⟩
          exact refers_forget tidy listed refers (own ▸ before)
        rw [now]
        rfl
    | false =>
      have before : forgets fks rows (doomed fks rows first) r column = false := by
        rw [← Bool.not_eq_true]
        intro was
        obtain ⟨fk,listed,kind,own,p,there,gone,refers⟩ := forgets_iff.mp was
        have both := @doomed_mono _ _ _ _ fks rows first (fun r => first r || second r) (fun r is => by rw [is,Bool.true_or]) p there gone
        rw [forgets_iff.mpr ⟨fk,listed,kind,own,p,there,both,refers⟩] at lost
        cases lost
      have now : forgets fks (removed fks rows first) (doomed fks (removed fks rows first) second)
          (forget fks rows (doomed fks rows first) r) column = false := by
        rw [← Bool.not_eq_true]
        intro is
        obtain ⟨fk,listed,kind,own,p',there,gone,refers⟩ := forgets_iff.mp is
        obtain ⟨p,isThere,stays,rfl⟩ := mem_removed.mp there
        have both := (doomed_twice tidy stable isThere stays).mp gone
        rw [forgets_iff.mpr ⟨fk,listed,kind,own,p,isThere,both,refers_of_forget tidy listed refers⟩] at lost
        cases lost
      rw [now,before]
      simp
  exact congrArg (fun value => { r with value }) (funext values)

/-- Rows that go one set after the other go as if they went at once. -/
theorem removed_removed (tidy : Tidy fks) (stable : ∀ r, second (forget fks rows (doomed fks rows first) r) = second r) :
    removed fks (removed fks rows first) second = removed fks rows fun r => first r || second r := by
  have kept : rows.filter (fun r => !doomed fks rows (fun r => first r || second r) r) =
      (rows.filter fun r => !doomed fks rows first r).filter fun r =>
        !doomed fks (removed fks rows first) second (forget fks rows (doomed fks rows first) r) := by
    rw [List.filter_filter]
    refine List.filter_congr fun r among => ?_
    cases isFirst : doomed fks rows first r with
    | true =>
      have both := @doomed_mono _ _ _ _ fks rows first (fun r => first r || second r) (fun r is => by rw [is,Bool.true_or]) r among isFirst
      simp [both]
    | false =>
      have same := Bool.eq_iff_iff.mpr (doomed_twice tidy stable among isFirst)
      simp [same]
  have split : removed fks (removed fks rows first) second = (((rows.filter fun r => !doomed fks rows first r).map
      (forget fks rows (doomed fks rows first))).filter fun r => !doomed fks (removed fks rows first) second r).map
        (forget fks (removed fks rows first) (doomed fks (removed fks rows first) second)) := rfl
  rw [split,List.filter_map,List.map_map]
  show _ = (rows.filter fun r => !doomed fks rows (fun r => first r || second r) r).map
    (forget fks rows (doomed fks rows fun r => first r || second r))
  rw [kept]
  exact List.map_congr_left fun r _ => forget_twice tidy stable r

end Twice
end Deletion

end StellarAlerts.ForeignKeys
