import StellarAlerts.UniqueTables

/-!
Rows that are found by a key or created for it, with identifiers that a generator
gives out. A row that was answered once stays the only one of its identifier
(`Known`), also when it is removed and its key gets a row again.
-/
namespace StellarAlerts.Registries
open UniqueTables
universe u v

structure Row (Id : Type u) (Key : Type v) where
  id : Id
  key : Key
deriving DecidableEq, Repr

variable {Id : Type u} {Key : Type v} {fresh : Nat → Id}

/-- The generator has given out the identifier. -/
def Issued (fresh : Nat → Id) (created : Nat) (id : Id) : Prop := ∃ n < created, id = fresh n

theorem issued_mono {m n : Nat} {id : Id} (le : m ≤ n) (issued : Issued fresh m id) : Issued fresh n id := by
  obtain ⟨k,below,same⟩ := issued
  exact ⟨k,Nat.lt_of_lt_of_le below le,same⟩

variable [DecidableEq Id] [DecidableEq Key]

/-- Both columns are unique. -/
def Row.clash (a b : Row Id Key) : Bool := a.id == b.id || a.key == b.key

structure Registry (fresh : Nat → Id) (Key : Type v) [DecidableEq Key] where
  table : Table (Row Id Key) Row.clash
  created : Nat
  issued : ∀ row ∈ table.rows, Issued fresh created row.id

def Registry.empty : Registry fresh Key := ⟨Table.empty,0,fun _ listed => by cases listed⟩
def Registry.find (r : Registry fresh Key) (key : Key) : Option (Row Id Key) := r.table.rows.find? fun row => row.key == key

/-- The registry with a new row; none where a column is taken. -/
def Registry.create (r : Registry fresh Key) (key : Key) : Option (Registry fresh Key) :=
  match inserted : r.table.insert ⟨fresh r.created,key⟩ with
  | none => none
  | some table => some ⟨table,r.created + 1,by
    intro row listed
    rw [insert_rows inserted,List.mem_append,List.mem_singleton] at listed
    rcases listed with old | rfl
    · exact issued_mono (Nat.le_succ _) (r.issued row old)
    · exact ⟨r.created,Nat.lt_succ_self _,rfl⟩⟩

def Registry.upsert (r : Registry fresh Key) (key : Key) : Option (Row Id Key) × Registry fresh Key :=
  match r.find key with
  | some row => (some row,r)
  | none =>
    match r.create key with
    | none => (none,r)
    | some r' => (some ⟨fresh r.created,key⟩,r')

def Registry.remove (r : Registry fresh Key) (id : Id) : Registry fresh Key :=
  ⟨r.table.filter fun row => row.id != id,r.created,fun row listed => r.issued row (List.mem_filter.mp listed).1⟩

variable {r r' : Registry fresh Key} {row other : Row Id Key} {key : Key}

theorem create_rows (created : r.create key = some r') :
    r'.table.rows = r.table.rows ++ [⟨fresh r.created,key⟩] ∧ r'.created = r.created + 1 := by
  unfold Registry.create at created
  split at created
  · cases created
  · rename_i table inserted
    obtain rfl := Option.some.inj created
    exact ⟨insert_rows inserted,rfl⟩

theorem upsert_cases (r : Registry fresh Key) (key : Key) :
    (∃ row, r.find key = some row ∧ r.upsert key = (some row,r)) ∨ r.upsert key = (none,r) ∨
      ∃ r', r.create key = some r' ∧ r.upsert key = (some ⟨fresh r.created,key⟩,r') := by
  cases found : r.find key with
  | some row => exact .inl ⟨row,rfl,by rw [Registry.upsert,found]⟩
  | none =>
    right
    cases created : r.create key with
    | none => exact .inl (by rw [Registry.upsert,found,created])
    | some r' => exact .inr ⟨r',rfl,by rw [Registry.upsert,found,created]⟩

theorem upsert_answer (answered : (r.upsert key).1 = some row) : row ∈ (r.upsert key).2.table.rows ∧ row.key = key := by
  rcases upsert_cases r key with ⟨old,found,upserted⟩ | upserted | ⟨r',created,upserted⟩
  · rw [upserted] at answered ⊢
    obtain rfl := Option.some.inj answered
    exact ⟨List.mem_of_find?_eq_some found,by simpa using List.find?_some found⟩
  · rw [upserted] at answered
    cases answered
  · rw [upserted] at answered ⊢
    obtain rfl := Option.some.inj answered
    rw [(create_rows created).1]
    exact ⟨List.mem_append_right _ (List.mem_singleton_self _),rfl⟩

theorem mem_upsert (listed : row ∈ r.table.rows) (key : Key) : row ∈ (r.upsert key).2.table.rows := by
  rcases upsert_cases r key with ⟨old,_,upserted⟩ | upserted | ⟨r',created,upserted⟩
  · rw [upserted]
    exact listed
  · rw [upserted]
    exact listed
  · rw [upserted,(create_rows created).1]
    exact List.mem_append_left _ listed

theorem clash_comm (a b : Row Id Key) : a.clash b = b.clash a := by
  rw [Row.clash,Row.clash,BEq.comm,@BEq.comm _ _ _ a.key]
theorem eq_of_id (inA : row ∈ r.table.rows) (inB : other ∈ r.table.rows) (same : row.id = other.id) : row = other :=
  eq_of_clash r.table clash_comm inA inB (by simp [Row.clash,same])
theorem eq_of_key (inA : row ∈ r.table.rows) (inB : other ∈ r.table.rows) (same : row.key = other.key) : row = other :=
  eq_of_clash r.table clash_comm inA inB (by simp [Row.clash,same])

/-- The identifier was given out, and no other row has it. -/
def Registry.Known (r : Registry fresh Key) (row : Row Id Key) : Prop :=
  Issued fresh r.created row.id ∧ ∀ other ∈ r.table.rows, other.id = row.id → other = row

theorem known_of_mem (listed : row ∈ r.table.rows) : r.Known row :=
  ⟨r.issued row listed,fun _ member same => eq_of_id member listed same⟩

theorem upsert_known (injective : Function.Injective fresh) (known : r.Known row) (key : Key) : (r.upsert key).2.Known row := by
  rcases upsert_cases r key with ⟨old,_,upserted⟩ | upserted | ⟨r',created,upserted⟩
  · rw [upserted]
    exact known
  · rw [upserted]
    exact known
  · obtain ⟨rows,count⟩ := create_rows created
    rw [upserted]
    refine ⟨count ▸ issued_mono (Nat.le_succ _) known.1,?_⟩
    intro other member same
    rw [rows,List.mem_append,List.mem_singleton] at member
    rcases member with old | rfl
    · exact known.2 other old same
    · obtain ⟨n,below,idIs⟩ := known.1
      exact absurd (injective (same.trans idIs)) (Nat.ne_of_gt below)

theorem remove_known (known : r.Known row) (id : Id) : (r.remove id).Known row :=
  ⟨known.1,fun other member => known.2 other (List.mem_filter.mp member).1⟩

end StellarAlerts.Registries
