import Mathlib.Data.List.Pairwise

/-!
Tables under unique constraints. A row is inserted when it breaks no constraint with the
rows already there, so every table that can be built meets its constraints.
-/
namespace StellarAlerts.UniqueTables
universe u

structure Table (Row : Type u) (clash : Row → Row → Bool) where
  rows : List Row
  unique : rows.Pairwise (fun a b => clash a b = false)

variable {Row : Type u} {clash : Row → Row → Bool}

def Table.empty : Table Row clash := ⟨[],List.Pairwise.nil⟩
def Table.holds (t : Table Row clash) (row : Row) : Bool := t.rows.any (clash · row)

def Table.insert (t : Table Row clash) (row : Row) : Option (Table Row clash) :=
  if taken : t.holds row then none
  else some ⟨t.rows ++ [row],by
    refine List.pairwise_append.mpr ⟨t.unique,List.pairwise_singleton ..,?_⟩
    intro a member b last
    obtain rfl := List.mem_singleton.mp last
    simp only [Table.holds,List.any_eq_true,not_exists,not_and,Bool.not_eq_true] at taken
    exact taken a member⟩

/-- The rows one after the other, without those that clash, and how many went in. -/
def Table.createMany (t : Table Row clash) : List Row → Nat × Table Row clash
  | [] => (0,t)
  | row :: rest =>
    match t.insert row with
    | none => t.createMany rest
    | some t' => ((t'.createMany rest).1 + 1,(t'.createMany rest).2)

def Table.filter (t : Table Row clash) (keep : Row → Bool) : Table Row clash := ⟨t.rows.filter keep,t.unique.filter keep⟩

/-- Rows that are changed in columns that no constraint is about. -/
def Table.map (t : Table Row clash) (f : Row → Row) (kept : ∀ a b, clash (f a) (f b) = clash a b) : Table Row clash :=
  ⟨t.rows.map f,List.pairwise_map.mpr (t.unique.imp fun {a b} apart => (kept a b).trans apart)⟩

/-- Rows that are changed only where a search does not look are found as before. -/
theorem find_map {p : Row → Bool} {f : Row → Row} (kept : ∀ row, p (f row) = p row) (rows : List Row) :
    (rows.map f).find? p = (rows.find? p).map f := by
  rw [List.find?_map]
  congr 2
  funext row
  exact kept row

@[simp] theorem empty_rows : (Table.empty : Table Row clash).rows = [] := rfl

variable {t : Table Row clash}

theorem find_of_mem {p : Row → Bool} (clashing : ∀ a b, p a = true → p b = true → clash a b = true) {row : Row}
    (listed : row ∈ t.rows) (hit : p row = true) : t.rows.find? p = some row := by
  obtain ⟨rows,unique⟩ := t
  change row ∈ rows at listed
  change rows.find? p = some row
  induction rows with
  | nil => cases listed
  | cons first rest ih =>
    obtain ⟨apart,unique⟩ := List.pairwise_cons.mp unique
    rcases List.mem_cons.mp listed with rfl | listed
    · rw [List.find?_cons_of_pos hit]
    · have other : ¬ p first = true := by
        intro also
        have clashes := clashing first row also hit
        rw [apart row listed] at clashes
        cases clashes
      rw [List.find?_cons_of_neg other]
      exact ih unique listed

variable {t' : Table Row clash}

theorem eq_of_rows (same : t.rows = t'.rows) : t = t' := by
  obtain ⟨rows,_⟩ := t
  obtain ⟨rows',_⟩ := t'
  obtain rfl : rows = rows' := same
  rfl

theorem holds_iff {row : Row} : t.holds row = true ↔ ∃ a ∈ t.rows, clash a row = true := by
  simp [Table.holds]

theorem insert_eq_none {row : Row} : t.insert row = none ↔ t.holds row = true := by
  unfold Table.insert
  split
  next taken => simp [taken]
  next free => simp [free]

theorem insert_rows {row : Row} (inserted : t.insert row = some t') : t'.rows = t.rows ++ [row] := by
  unfold Table.insert at inserted
  split at inserted
  next => cases inserted
  next =>
    injection inserted with same
    rw [← same]

theorem insert_free {row : Row} (inserted : t.insert row = some t') : t.holds row = false := by
  rw [← Bool.not_eq_true]
  intro taken
  rw [insert_eq_none.mpr taken] at inserted
  cases inserted

theorem createMany_one (t : Table Row clash) (row : Row) :
    (t.holds row = true ∧ t.createMany [row] = (0,t)) ∨
      (t.holds row = false ∧ (t.createMany [row]).1 = 1 ∧ (t.createMany [row]).2.rows = t.rows ++ [row]) := by
  cases inserted : t.insert row with
  | none =>
    left
    exact ⟨insert_eq_none.mp inserted,by simp [Table.createMany,inserted]⟩
  | some t' =>
    right
    exact ⟨insert_free inserted,by simp [Table.createMany,inserted],by simp [Table.createMany,inserted,insert_rows inserted]⟩

/-- Rows that clash neither with the table nor with each other all go in. -/
theorem createMany_of_free {rows : List Row} (free : ∀ row ∈ rows, t.holds row = false)
    (apart : rows.Pairwise (fun a b => clash a b = false)) : (t.createMany rows).2.rows = t.rows ++ rows := by
  induction rows generalizing t with
  | nil => simp [Table.createMany]
  | cons row rest ih =>
    cases inserted : t.insert row with
    | none =>
      have taken := insert_eq_none.mp inserted
      rw [free row (List.mem_cons_self ..)] at taken
      cases taken
    | some t' =>
      have rowsAre := insert_rows inserted
      obtain ⟨first,later⟩ := List.pairwise_cons.mp apart
      have freeLater : ∀ other ∈ rest, t'.holds other = false := by
        intro other listed
        rw [← Bool.not_eq_true,holds_iff]
        rintro ⟨a,member,clashes⟩
        rw [rowsAre,List.mem_append,List.mem_singleton] at member
        rcases member with old | rfl
        · have held := holds_iff.mpr ⟨a,old,clashes⟩
          rw [free other (List.mem_cons_of_mem row listed)] at held
          cases held
        · rw [first other listed] at clashes
          cases clashes
      simp only [Table.createMany,inserted]
      rw [ih freeLater later,rowsAre,List.append_assoc,List.singleton_append]

/-- An insertion of many puts some of the rows behind those that are there. -/
theorem createMany_grows (t : Table Row clash) (rows : List Row) :
    ∃ more, (t.createMany rows).2.rows = t.rows ++ more ∧ more.Sublist rows ∧ (t.createMany rows).1 = more.length := by
  induction rows generalizing t with
  | nil => exact ⟨[],by simp [Table.createMany],List.Sublist.refl _,rfl⟩
  | cons row rest ih =>
    cases inserted : t.insert row with
    | none =>
      obtain ⟨more,rowsAre,part,count⟩ := ih t
      rw [Table.createMany,inserted]
      exact ⟨more,rowsAre,part.cons row,count⟩
    | some t' =>
      obtain ⟨more,rowsAre,part,count⟩ := ih t'
      simp only [Table.createMany,inserted]
      refine ⟨row :: more,?_,part.cons_cons row,by rw [count,List.length_cons]⟩
      rw [rowsAre,insert_rows inserted,List.append_assoc,List.singleton_append]

variable {a : Row}

theorem createMany_mono {rows : List Row} (there : a ∈ t.rows) : a ∈ (t.createMany rows).2.rows := by
  obtain ⟨more,rowsAre,_,_⟩ := createMany_grows t rows
  rw [rowsAre]
  exact List.mem_append_left more there

theorem createMany_sub {rows : List Row} (there : a ∈ (t.createMany rows).2.rows) : a ∈ t.rows ∨ a ∈ rows := by
  obtain ⟨more,rowsAre,part,_⟩ := createMany_grows t rows
  rw [rowsAre,List.mem_append] at there
  exact there.imp_right fun listed => part.subset listed

theorem createMany_holds (reflexive : ∀ a, clash a a = true) {rows : List Row} (listed : a ∈ rows) :
    (t.createMany rows).2.holds a = true := by
  induction rows generalizing t with
  | nil => cases listed
  | cons row rest ih =>
    cases inserted : t.insert row with
    | none =>
      rw [Table.createMany,inserted]
      rcases List.mem_cons.mp listed with rfl | later
      · obtain ⟨b,there,clashes⟩ := holds_iff.mp (insert_eq_none.mp inserted)
        exact holds_iff.mpr ⟨b,createMany_mono there,clashes⟩
      · exact ih later
    | some t' =>
      rw [Table.createMany,inserted]
      rcases List.mem_cons.mp listed with rfl | later
      · have there : a ∈ t'.rows := by simp [insert_rows inserted]
        exact holds_iff.mpr ⟨a,createMany_mono there,reflexive a⟩
      · exact ih later

theorem eq_of_clash (t : Table Row clash) (symmetric : ∀ a b, clash a b = clash b a) {b : Row} (inA : a ∈ t.rows)
    (inB : b ∈ t.rows) (clashes : clash a b = true) : a = b := by
  by_contra apart
  have symm : Std.Symm fun a b => clash a b = false := ⟨fun a b free => by rw [symmetric,free]⟩
  have free := t.unique.forall inA inB apart
  rw [clashes] at free
  cases free

theorem filter_length_le_one (t : Table Row clash) {kind : Row → Bool}
    (clashing : ∀ a ∈ t.rows, ∀ b ∈ t.rows, kind a = true → kind b = true → clash a b = true) :
    (t.rows.filter kind).length ≤ 1 := by
  have apart := t.unique.filter kind
  cases listed : t.rows.filter kind with
  | nil => simp
  | cons a rest =>
    cases rest with
    | nil => simp
    | cons b rest =>
      rw [listed] at apart
      have first : a ∈ t.rows.filter kind := by simp [listed]
      have second : b ∈ t.rows.filter kind := by simp [listed]
      rw [List.mem_filter] at first second
      have clashes := clashing a first.1 b second.1 first.2 second.2
      rw [(List.pairwise_cons.mp apart).1 b (List.mem_cons_self ..)] at clashes
      cases clashes

end StellarAlerts.UniqueTables
