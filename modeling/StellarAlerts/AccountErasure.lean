import Mathlib.Data.List.Nodup
import StellarAlerts.AccountDeletion

/-!
What the deletion of an account leaves. A payment with a checksum stops it, and other
users' rows go or change where they refer to what goes; where nothing of the kind is
there, the user is gone and nobody else is touched.
-/
namespace StellarAlerts.AccountErasure
open ForeignKeys AccountDeletion

section Rows
variable (db : Database) (userId : String)

def webhookIds : List String := idsWhere .webhook (equals .userId userId) db.rows
def walletIds : List String := idsWhere .wallet (equals .userId userId) db.rows
def paymentIds : List String := idsWhere .payment (isIn .walletId (walletIds db userId)) db.rows
def deliveryIds : List String := idsWhere .notificationDelivery (isIn .paymentId (paymentIds db userId)) db.rows
def familyIds : List String := valuesWhere .familyId .refreshSession (equals .userId userId) db.rows

/-- The row is the user's own, or refers to the user or to one of its wallets. -/
def names (r : Row) : Bool :=
  inTable .user (equals .id userId) r || equals .userId userId r || equals .actorUserId userId r || isIn .walletId (walletIds db userId) r

/-- The row refers to a webhook, wallet, payment, delivery or session of the user. -/
def hangs (r : Row) : Bool :=
  isIn .webhookId (webhookIds db userId) r || isIn .walletId (walletIds db userId) r || isIn .paymentId (paymentIds db userId) r ||
    isIn .deliveryId (deliveryIds db userId) r || isIn .familyId (familyIds db userId) r

/-- The archive of payments names wallets without a key. -/
def belongs (r p : Row) : Bool :=
  foreignKeys.any (fun fk => fk.refers r p) || (references .paymentArchive .walletId .wallet .restrict).refers r p

/-- A row is the user's that it names; where it names none, it is the owner's of what it belongs to. -/
inductive Owned (owner : String) : Row → Prop where
  | account {r : Row} : r.table = .user → r.value .id = some owner → Owned owner r
  | own {r : Row} : r.value .userId = some owner → Owned owner r
  | through {r p : Row} : r.table ≠ .user → r.value .userId = none → p ∈ db.rows → belongs r p = true → Owned owner p → Owned owner r

/-- Whatever fails, nothing has changed; where nothing fails the account is gone; other users' rows stay as they are. -/
structure Correct : Prop where
  rolledBack : ∀ outage now message, (deleteAccount outage now userId db).1 = .error message →
    (deleteAccount outage now userId db).2 = db
  deleted : ∀ now, (∃ summary, (deleteAccount (fun _ => none) now userId db).1 = .ok summary) ∧
    ∀ r ∈ (deleteAccount (fun _ => none) now userId db).2.rows, names db userId r = false
  others : ∀ outage now owner, owner ≠ userId → ∀ r ∈ db.rows, Owned db owner r → r ∈ (deleteAccount outage now userId db).2.rows

/-- No payment of the user has a checksum or is archived, no audit names the user, every token history of
    the user is of one of its sessions, and no row of another user refers to what goes. -/
structure Deletable : Prop where
  unsummed : ∀ r ∈ db.rows, r.table = .paymentChecksum → isIn .paymentId (paymentIds db userId) r = false
  unarchived : ∀ r ∈ db.rows, r.table = .paymentArchive → isIn .walletId (walletIds db userId) r = false
  unaudited : ∀ r ∈ db.rows, equals .actorUserId userId r = false
  sessions : ∀ r ∈ db.rows, r.table = .refreshTokenHistory → equals .userId userId r = true → isIn .familyId (familyIds db userId) r = true
  apart : ∀ r ∈ db.rows, hangs db userId r = true → ∀ owner, owner ≠ userId → ¬ Owned db owner r

end Rows

theorem isIn_iff (fk : Key) {rows : List Row} {test : Row → Bool} {r : Row} (child : r.table = fk.child) :
    isIn fk.column (valuesWhere fk.key fk.parent test rows) r = true ↔ ∃ p ∈ rows, test p = true ∧ fk.refers r p = true := by
  constructor
  · intro is
    obtain ⟨value,own,listed⟩ := (Option.any_eq_true _ _).mp is
    obtain ⟨p,there,same⟩ := List.mem_filterMap.mp (of_decide_eq_true listed)
    split at same
    next both =>
      obtain ⟨parent,chosen⟩ := Bool.and_eq_true _ _ ▸ both
      refine ⟨p,there,chosen,refers_iff.mpr ⟨child,of_decide_eq_true parent,?_,own.trans same.symm⟩⟩
      rw [own]
      rfl
    next => cases same
  · rintro ⟨p,there,chosen,refers⟩
    obtain ⟨_,parent,some_,same⟩ := refers_iff.mp refers
    obtain ⟨value,own⟩ := Option.isSome_iff_exists.mp some_
    refine (Option.any_eq_true _ _).mpr ⟨value,own,decide_eq_true (List.mem_filterMap.mpr ⟨p,there,?_⟩)⟩
    rw [if_pos (by simp [parent,chosen]),← same,own]

/-- What no key sets to null decides. -/
def Stable (test : Row → Bool) : Prop := ∀ rows gone r, test (forget foreignKeys rows gone r) = test r

variable {table : Table} {column : Column}

theorem stable_of_column {test : Row → Bool} (f : Option String → Bool) (only : ∀ r : Row, test r = f (r.value column))
    (kept : ∀ fk ∈ foreignKeys, fk.onDelete = .setNull → ¬ (fk.child = table ∧ fk.column = column)) :
    Stable (inTable table test) := by
  intro rows gone r
  by_cases own : r.table = table
  · have value : (forget foreignKeys rows gone r).value column = r.value column :=
      forget_kept fun fk listed kind same => kept fk listed kind ⟨same.1.trans own,same.2⟩
    rw [inTable,inTable,only,only,value]
    rfl
  · have out : decide (r.table = table) = false := decide_eq_false own
    show (decide (r.table = table) && _) = (decide (r.table = table) && _)
    rw [out,Bool.false_and,Bool.false_and]

theorem stable_equals {value : String}
    (kept : ∀ fk ∈ foreignKeys, fk.onDelete = .setNull → ¬ (fk.child = table ∧ fk.column = column)) :
    Stable (inTable table (equals column value)) :=
  stable_of_column (fun held => held = some value) (fun _ => rfl) kept

theorem stable_isIn {values : List String}
    (kept : ∀ fk ∈ foreignKeys, fk.onDelete = .setNull → ¬ (fk.child = table ∧ fk.column = column)) :
    Stable (inTable table (isIn column values)) :=
  stable_of_column (fun held => held.any fun value => value ∈ values) (fun _ => rfl) kept

theorem restricting_roots : ∀ fk ∈ foreignKeys, fk.onDelete = .restrict → ∀ other ∈ foreignKeys, other.onDelete = .cascade →
    other.child ≠ fk.parent := by decide

structure Left (db : Database) (tests : List (Row → Bool)) (rows : List Row) : Prop where
  eq : rows = removed foreignKeys db.rows fun r => tests.any fun test => test r
  stable : ∀ test ∈ tests, Stable test

namespace Left
variable {db : Database} {tests : List (Row → Bool)} {rows : List Row}

theorem start : Left db [] db.rows := ⟨removed_none.symm,fun _ listed => absurd listed List.not_mem_nil⟩

theorem back (left : Left db tests rows) {r : Row} (there : r ∈ rows) : ∃ r₀ ∈ db.rows,
    (∃ gone, forget foreignKeys db.rows gone r₀ = r) ∧ ∀ test ∈ tests, test r = false := by
  rw [left.eq] at there
  obtain ⟨r₀,was,stays,same⟩ := mem_removed.mp there
  refine ⟨r₀,was,⟨_,same⟩,fun test listed => ?_⟩
  rw [← same,left.stable test listed,← Bool.not_eq_true]
  intro chosen
  rw [doomed_chosen (List.any_eq_true.mpr ⟨test,listed,chosen⟩)] at stays
  cases stays

theorem kept (left : Left db tests rows) {r : Row} (was : r ∈ db.rows) (root : ∀ fk ∈ foreignKeys, fk.onDelete = .cascade → fk.child ≠ r.table)
    (none_ : ∀ test ∈ tests, test r = false) : ∃ gone, forget foreignKeys db.rows gone r ∈ rows := by
  rw [left.eq]
  refine ⟨_,mem_removed.mpr ⟨r,was,?_,rfl⟩⟩
  rw [← Bool.not_eq_true]
  intro goes
  obtain ⟨test,listed,chosen⟩ := List.any_eq_true.mp (doomed_root root goes)
  rw [none_ test listed] at chosen
  cases chosen

theorem next (left : Left db tests rows) {test : Row → Bool} (stable : Stable test) :
    Left db (test :: tests) (removed foreignKeys rows test) := by
  constructor
  · have both : (fun r : Row => (test :: tests).any fun test => test r) = fun r => (tests.any fun test => test r) || test r := by
      funext r
      rw [List.any_cons,Bool.or_comm]
    rw [left.eq,both]
    exact removed_removed foreignKeys_tidy fun r => stable _ _ r
  · intro other listed
    rcases List.mem_cons.mp listed with rfl | before
    · exact stable
    · exact left.stable other before

end Left

/-- The body ends well where it may and no statement fails; then it leaves what is said. -/
structure Runs {α : Type} (outage : Nat → Option String) (body : Transaction α) (s : Nat × Database) (may : Prop)
    (then_ : α → List Row → Prop) : Prop where
  ends : ∀ a s', body s = .ok (a,s') → may ∧ then_ a s'.2.rows
  runs : may → (∀ n, outage n = none) → ∃ a s', body s = .ok (a,s')

section Runs
variable {α β : Type} {outage : Nat → Option String} {s : Nat × Database} {A B : Prop} {P : α → List Row → Prop} {Q : β → List Row → Prop}

variable {x : Transaction α}

theorem Runs.bind {f : α → Transaction β} (first : Runs outage x s A P)
    (next : ∀ a s', P a s'.2.rows → Runs outage (f a) s' B Q) : Runs outage (x >>= f) s (A ∧ B) Q := by
  have step : (x >>= f) s = (x s).bind fun done => f done.1 done.2 := rfl
  constructor
  · intro b s'' ok
    rw [step] at ok
    cases ran : x s with
    | error message =>
      rw [ran] at ok
      cases ok
    | ok done =>
      rw [ran] at ok
      obtain ⟨may,held⟩ := first.ends done.1 done.2 ran
      obtain ⟨mayToo,heldToo⟩ := (next done.1 done.2 held).ends b s'' ok
      exact ⟨⟨may,mayToo⟩,heldToo⟩
  · rintro ⟨may,mayToo⟩ up
    obtain ⟨a,s',ran⟩ := first.runs may up
    obtain ⟨b,s'',ranToo⟩ := (next a s' (first.ends a s' ran).2).runs mayToo up
    refine ⟨b,s'',?_⟩
    rw [step,ran]
    exact ranToo

theorem Runs.then {f : α → Transaction β} (first : Runs outage x s True P)
    (next : ∀ a s', P a s'.2.rows → Runs outage (f a) s' B Q) : Runs outage (x >>= f) s B Q := by
  have both := first.bind next
  rwa [true_and] at both

theorem Runs.before {f : α → Transaction β} (first : Runs outage x s A P)
    (next : ∀ a s', P a s'.2.rows → Runs outage (f a) s' True Q) : Runs outage (x >>= f) s A Q := by
  have both := first.bind next
  rwa [and_true] at both

theorem Runs.pure {a : α} (held : P a s.2.rows) : Runs outage (Pure.pure a : Transaction α) s True P := by
  constructor
  · rintro b s' ok
    cases ok
    exact ⟨trivial,held⟩
  · exact fun _ _ => ⟨a,s,rfl⟩

theorem runs_statement {execute : Database → Except String (α × Database)}
    (ends : ∀ a db', execute s.2 = .ok (a,db') → A ∧ P a db'.rows) (may : A → ∃ a db', execute s.2 = .ok (a,db')) :
    Runs outage (statement outage execute) s A P := by
  constructor
  · intro a s' ok
    rw [statement] at ok
    split at ok
    · cases ok
    · cases ran : execute s.2 with
      | error message =>
        rw [ran] at ok
        cases ok
      | ok done =>
        rw [ran] at ok
        cases ok
        exact ends done.1 done.2 ran
  · intro is up
    obtain ⟨a,db',ran⟩ := may is
    refine ⟨a,(s.1 + 1,db'),?_⟩
    rw [statement,up]
    show Except.map _ (execute s.2) = _
    rw [ran]
    rfl

variable {db : Database}

theorem deleteWhere_ok {chosen : Row → Bool} {count : Nat} {db' : Database} (ok : db.deleteWhere chosen = .ok (count,db')) :
    forbidden foreignKeys db.rows chosen = false ∧ db'.rows = removed foreignKeys db.rows chosen := by
  rw [Database.deleteWhere] at ok
  split at ok
  next allowed =>
    cases ok
    exact ⟨allowed,rfl⟩
  next => cases ok

theorem deleteWhere_runs {chosen : Row → Bool} (allowed : forbidden foreignKeys db.rows chosen = false) :
    ∃ count db', db.deleteWhere chosen = .ok (count,db') := by
  rw [Database.deleteWhere,dif_pos allowed]
  exact ⟨_,_,rfl⟩

section Deletes
variable {db : Database} {tests : List (Row → Bool)} (left : Left db tests s.2.rows) {table : Table} {test : Row → Bool}
  (stable : Stable (inTable table test))
include left stable

theorem runs_deleteMany (allowed : forbidden foreignKeys s.2.rows (inTable table test) = false ↔ A) :
    Runs outage (deleteMany outage table test) s A fun _ rows => Left db (inTable table test :: tests) rows := by
  refine runs_statement (fun count db' ok => ?_) fun may => deleteWhere_runs (allowed.mpr may)
  obtain ⟨was,rows⟩ := deleteWhere_ok ok
  rw [rows]
  exact ⟨allowed.mp was,left.next stable⟩

theorem runs_deleteFree (free : ∀ fk ∈ foreignKeys, fk.onDelete = .restrict → fk.parent ≠ table) :
    Runs outage (deleteMany outage table test) s True fun _ rows => Left db (inTable table test :: tests) rows := by
  refine runs_deleteMany left stable (iff_true_intro ?_)
  rw [← Bool.not_eq_true,forbidden_iff restricting_roots]
  rintro ⟨fk,listed,kind,r,_,p,_,chosen,refers⟩
  have own : p.table = table := of_decide_eq_true (Bool.and_eq_true _ _ ▸ chosen).1
  exact free fk listed kind ((refers_iff.mp refers).2.1.symm.trans own)

end Deletes

theorem runs_findMany {tests : List (Row → Bool)} (left : Left db tests s.2.rows) (table : Table) (test : Row → Bool) :
    Runs outage (findMany outage table test) s True fun ids rows => ids = idsWhere table test s.2.rows ∧ Left db tests rows := by
  refine runs_statement (fun ids db' ok => ?_) fun _ => ⟨_,_,rfl⟩
  cases ok
  exact ⟨trivial,rfl,left⟩

end Runs

section Choices
variable (db : Database) (userId : String)

/-- What is deleted, the last first. -/
def choices : List (Row → Bool) :=
  [inTable .user (equals .id userId),
    inTable .dexSwapWatch (equals .userId userId),
    inTable .anchorTransactionWatch (equals .userId userId),
    inTable .multisigSignerWatcher (equals .userId userId),
    inTable .sorobanContractSubscription (equals .userId userId),
    inTable .notificationPreference (equals .userId userId),
    inTable .wallet (equals .userId userId),
    inTable .ingestionCursor (isIn .walletId (walletIds db userId)),
    inTable .payment (isIn .walletId (walletIds db userId)),
    inTable .webhook (equals .userId userId),
    inTable .webhookCircuitBreaker (isIn .webhookId (webhookIds db userId)),
    inTable .webhookLog (isIn .webhookId (webhookIds db userId))]

variable {db userId} {rows : List Row}

variable {table : Table} {r : Row}

theorem inTable_iff {test : Row → Bool} : inTable table test r = true ↔ r.table = table ∧ test r = true := by
  simp [inTable]
theorem no_cascade_to (root : ∀ fk ∈ foreignKeys, fk.onDelete = .cascade → fk.child ≠ table) (own : r.table = table) :
    ∀ fk ∈ foreignKeys, fk.onDelete = .cascade → fk.child ≠ r.table := own ▸ root

variable {tests : List (Row → Bool)}

theorem Left.idsWhere_eq (left : Left db tests rows) {test : Row → Bool} (stable : Stable (inTable table test))
    (root : ∀ fk ∈ foreignKeys, fk.onDelete = .cascade → fk.child ≠ table)
    (none_ : ∀ other ∈ tests, ∀ r : Row, r.table = table → other r = false) :
    idsWhere table test rows = idsWhere table test db.rows := by
  rw [left.eq]
  show ((db.rows.filter _).map _).filterMap _ = _
  rw [List.filterMap_map,List.filterMap_filter]
  refine List.filterMap_congr fun r _ => ?_
  show (if (!_) = true then (if inTable table test (forget foreignKeys db.rows _ r) = true then _ else none) else none) =
    if inTable table test r = true then r.value .id else none
  rw [stable,id_kept]
  by_cases own : inTable table test r = true
  · have stays : doomed foreignKeys db.rows (fun r => tests.any fun test => test r) r = false := by
      rw [← Bool.not_eq_true]
      intro goes
      obtain ⟨other,listed,chosen⟩ := List.any_eq_true.mp (doomed_root (no_cascade_to root (inTable_iff.mp own).1) goes)
      rw [none_ other listed r (inTable_iff.mp own).1] at chosen
      cases chosen
    rw [stays]
    rfl
  · rw [if_neg own]
    split <;> rfl

theorem refers_of_kept {fk : Key} (key : fk.key = .id) {gone : Row → Bool} {p : Row}
    (refers : fk.refers r (forget foreignKeys rows gone p) = true) : fk.refers r p = true := by
  obtain ⟨child,parent,some_,same⟩ := refers_iff.mp refers
  rw [key,id_kept,← key] at same
  exact refers_iff.mpr ⟨child,parent,some_,same⟩

theorem payments_allowed (left : Left db tests rows)
    (none_ : ∀ other ∈ tests, ∀ r : Row, r.table = .payment ∨ r.table = .paymentChecksum → other r = false) :
    forbidden foreignKeys rows (inTable .payment (isIn .walletId (walletIds db userId))) = false ↔
      ∀ r ∈ db.rows, r.table = .paymentChecksum → isIn .paymentId (paymentIds db userId) r = false := by
  have only : ∀ fk ∈ foreignKeys, fk.onDelete = .restrict → fk.parent = .payment →
      fk = references .paymentChecksum .paymentId .payment .restrict := by decide
  have listed : references .paymentChecksum .paymentId .payment .restrict ∈ foreignKeys := by decide
  have stable : Stable (inTable .payment (isIn .walletId (walletIds db userId))) := stable_isIn (by decide)
  have found {r : Row} (isSum : r.table = .paymentChecksum) : isIn .paymentId (paymentIds db userId) r = true ↔
      ∃ p ∈ db.rows, isIn .walletId (walletIds db userId) p = true ∧ (references .paymentChecksum .paymentId .payment .restrict).refers r p = true :=
    isIn_iff (references .paymentChecksum .paymentId .payment .restrict) isSum
  rw [← Bool.not_eq_true,forbidden_iff restricting_roots]
  constructor
  · intro none r was isSum
    rw [← Bool.not_eq_true,found isSum]
    rintro ⟨p,wasToo,chosen,refers⟩
    have isPayment : p.table = .payment := (refers_iff.mp refers).2.1
    obtain ⟨_,there⟩ := left.kept was (no_cascade_to (by decide) isSum) fun other among => none_ other among r (.inr isSum)
    obtain ⟨_,thereToo⟩ := left.kept wasToo (no_cascade_to (by decide) isPayment) fun other among => none_ other among p (.inl isPayment)
    refine none ⟨_,listed,rfl,_,there,_,thereToo,?_,?_⟩
    · rw [stable]
      exact inTable_iff.mpr ⟨isPayment,chosen⟩
    · refine refers_forget foreignKeys_tidy listed refers ?_
      exact forgets_apart foreignKeys_tidy listed (by decide) isSum
  · rintro none ⟨fk,among,kind,r',there,p',thereToo,chosen,refers⟩
    obtain ⟨isPayment,owned⟩ := inTable_iff.mp chosen
    have own := only fk among kind ((refers_iff.mp refers).2.1.symm.trans isPayment)
    subst own
    obtain ⟨r,was,⟨_,rfl⟩,_⟩ := left.back there
    obtain ⟨p,wasToo,⟨_,rfl⟩,_⟩ := left.back thereToo
    have isSum : r.table = .paymentChecksum := (refers_iff.mp refers).1
    rw [stable] at chosen
    have summed := (found isSum).mpr ⟨p,wasToo,(inTable_iff.mp chosen).2,refers_of_forget foreignKeys_tidy listed refers⟩
    rw [none r was isSum] at summed
    cases summed

theorem wallets_allowed (left : Left db tests rows) (before : inTable .payment (isIn .walletId (walletIds db userId)) ∈ tests) :
    forbidden foreignKeys rows (inTable .wallet (equals .userId userId)) = false := by
  have only : ∀ fk ∈ foreignKeys, fk.onDelete = .restrict → fk.parent = .wallet → fk = references .payment .walletId .wallet .restrict := by decide
  have stable : Stable (inTable .wallet (equals .userId userId)) := stable_equals (by decide)
  rw [← Bool.not_eq_true,forbidden_iff restricting_roots]
  rintro ⟨fk,among,kind,r,there,p',thereToo,chosen,refers⟩
  have own := only fk among kind ((refers_iff.mp refers).2.1.symm.trans (inTable_iff.mp chosen).1)
  subst own
  obtain ⟨_,_,_,out⟩ := left.back there
  obtain ⟨p,was,⟨_,rfl⟩,_⟩ := left.back thereToo
  rw [stable] at chosen
  have isPayment : r.table = .payment := (refers_iff.mp refers).1
  have found : isIn .walletId (walletIds db userId) r = true :=
    (isIn_iff (references .payment .walletId .wallet .restrict) isPayment).mpr ⟨p,was,(inTable_iff.mp chosen).2,refers_of_kept rfl refers⟩
  have gone := out _ before
  rw [inTable_iff.mpr ⟨isPayment,found⟩] at gone
  cases gone

theorem user_allowed (left : Left db tests rows)
    (before : ∀ table ∈ [Table.wallet,.notificationPreference,.webhook], inTable table (equals .userId userId) ∈ tests) :
    forbidden foreignKeys rows (inTable .user (equals .id userId)) = false := by
  have only : ∀ fk ∈ foreignKeys, fk.onDelete = .restrict → fk.parent = .user →
      fk.child ∈ [Table.wallet,.notificationPreference,.webhook] ∧ fk.column = .userId ∧ fk.key = .id := by decide
  rw [← Bool.not_eq_true,forbidden_iff restricting_roots]
  rintro ⟨fk,among,kind,r,there,p,_,chosen,refers⟩
  obtain ⟨isUser,named⟩ := inTable_iff.mp chosen
  obtain ⟨child,column,key⟩ := only fk among kind ((refers_iff.mp refers).2.1.symm.trans isUser)
  obtain ⟨isChild,_,_,same⟩ := refers_iff.mp refers
  obtain ⟨_,_,_,out⟩ := left.back there
  have own : equals .userId userId r = true := by
    rw [column,key] at same
    exact decide_eq_true (same.trans (of_decide_eq_true named))
  have gone := out _ (before fk.child child)
  rw [inTable_iff.mpr ⟨isChild,own⟩] at gone
  cases gone

theorem runs_deleteUser {outage : Nat → Option String} {s : Nat × Database} (left : Left db tests s.2.rows)
    (before : ∀ table ∈ [Table.wallet,.notificationPreference,.webhook], inTable table (equals .userId userId) ∈ tests)
    (none_ : ∀ other ∈ tests, ∀ r : Row, r.table = .user → other r = false)
    (exists_ : ∃ r ∈ db.rows, inTable .user (equals .id userId) r = true) :
    Runs outage (deleteUnique outage .user (equals .id userId)) s True fun _ rows => Left db (inTable .user (equals .id userId) :: tests) rows := by
  have stable : Stable (inTable .user (equals .id userId)) := stable_equals (by decide)
  have there : s.2.rows.any (inTable .user (equals .id userId)) = true := by
    obtain ⟨r,was,is⟩ := exists_
    have isUser := (inTable_iff.mp is).1
    obtain ⟨_,still⟩ := left.kept was (no_cascade_to (by decide) isUser) fun other among => none_ other among r isUser
    exact List.any_eq_true.mpr ⟨_,still,by rw [stable]; exact is⟩
  refine runs_statement (fun count db' ok => ?_) fun _ => ?_
  · rw [if_pos there] at ok
    rw [(deleteWhere_ok ok).2]
    exact ⟨trivial,left.next stable⟩
  · obtain ⟨count,db',ran⟩ := deleteWhere_runs (user_allowed left before)
    exact ⟨count,db',by rw [if_pos there]; exact ran⟩

theorem deleteRows_runs {outage : Nat → Option String} {now : String} (exists_ : ∃ r ∈ db.rows, inTable .user (equals .id userId) r = true) :
    Runs outage (deleteRows outage now userId) (0,db)
      (∀ r ∈ db.rows, r.table = .paymentChecksum → isIn .paymentId (paymentIds db userId) r = false)
      fun _ rows => Left db (choices db userId) rows := by
  rw [deleteRows]
  refine (runs_findMany Left.start .webhook _).then fun ids s₁ found => ?_
  obtain ⟨rfl,left⟩ := found
  refine (runs_deleteFree left (stable_isIn (by decide)) (by decide)).then fun _ s₂ left => ?_
  refine (runs_deleteFree left (stable_isIn (by decide)) (by decide)).then fun _ s₃ left => ?_
  refine (runs_deleteFree left (stable_equals (by decide)) (by decide)).then fun _ s₄ left => ?_
  refine (runs_findMany left .wallet _).then fun ids s₅ found => ?_
  have same : idsWhere .wallet (equals .userId userId) s₄.2.rows = walletIds db userId :=
    left.idsWhere_eq (stable_equals (by decide)) (by decide) (by simp +contextual [inTable])
  obtain ⟨rfl,left⟩ := found
  rw [same]
  refine (runs_deleteMany left (stable_isIn (by decide)) (payments_allowed left ?_)).before fun _ s₆ left => ?_
  · rintro other listed r (own | own) <;> revert other <;> simp [inTable,own]
  refine (runs_deleteFree left (stable_isIn (by decide)) (by decide)).then fun _ s₇ left => ?_
  refine (runs_deleteMany left (stable_equals (by decide)) (iff_true_intro (wallets_allowed left (by simp)))).then fun _ s₈ left => ?_
  refine (runs_deleteFree left (stable_equals (by decide)) (by decide)).then fun _ s₉ left => ?_
  refine (runs_deleteFree left (stable_equals (by decide)) (by decide)).then fun _ s₁₀ left => ?_
  refine (runs_deleteFree left (stable_equals (by decide)) (by decide)).then fun _ s₁₁ left => ?_
  refine (runs_deleteFree left (stable_equals (by decide)) (by decide)).then fun _ s₁₂ left => ?_
  refine (runs_deleteFree left (stable_equals (by decide)) (by decide)).then fun _ s₁₃ left => ?_
  refine (runs_deleteUser left (by simp) (by simp +contextual [inTable]) exists_).then fun _ s₁₄ left => ?_
  exact .pure left

end Choices

section Gone
variable (db : Database) (userId : String)

def chosen (r : Row) : Bool := (choices db userId).any fun test => test r

/-- The tables whose rows go with the user. -/
def named : List Table :=
  [.apiKey,.alertRule,.telegramSyncCode,.exportJob,.transactionSimulation,.sorobanContractSubscription,.multisigSignerWatcher,
    .anchorTransactionWatch,.dexSwapWatch,.webhookSandboxReplay,.mfaRecoveryCode,.refreshSession]

/-- Chosen rows and what goes with them. -/
def gone (r : Row) : Bool :=
  chosen db userId r || (r.table ∈ named && equals .userId userId r) || inTable .alertRule (isIn .walletId (walletIds db userId)) r ||
    inTable .notificationDelivery (isIn .paymentId (paymentIds db userId)) r ||
    inTable .notificationDeliveryAttempt (isIn .deliveryId (deliveryIds db userId)) r ||
    inTable .refreshTokenHistory (isIn .familyId (familyIds db userId)) r

variable {db userId} {r p : Row}

theorem cascading : ∀ fk ∈ foreignKeys, fk.onDelete = .cascade → fk.child ∈ named ∧ fk = references fk.child .userId .user .cascade ∨
    fk = references .ingestionCursor .walletId .wallet .cascade ∨ fk = references .alertRule .walletId .wallet .cascade ∨
    fk = references .webhookLog .webhookId .webhook .cascade ∨ fk = references .webhookCircuitBreaker .webhookId .webhook .cascade ∨
    fk = references .notificationDelivery .paymentId .payment .cascade ∨
    fk = references .notificationDeliveryAttempt .deliveryId .notificationDelivery .cascade ∨
    fk.parent = .deadLetter ∨ fk = ⟨.refreshTokenHistory,.familyId,.refreshSession,.familyId,.cascade⟩ := by decide

theorem gone_of_chosen (is : chosen db userId r = true) : gone db userId r = true := by simp [gone,is]

theorem gone_parent (is : gone db userId p = true) :
    (p.table = .user → equals .id userId p = true) ∧ (p.table = .wallet → equals .userId userId p = true) ∧
      (p.table = .webhook → equals .userId userId p = true) ∧ (p.table = .payment → isIn .walletId (walletIds db userId) p = true) ∧
      (p.table = .notificationDelivery → isIn .paymentId (paymentIds db userId) p = true) ∧
      (p.table = .refreshSession → equals .userId userId p = true) ∧ p.table ≠ .deadLetter := by
  refine ⟨?_,?_,?_,?_,?_,?_,fun own => by simp [gone,chosen,choices,inTable,named,own] at is⟩
  all_goals
    intro own
    simpa [gone,chosen,choices,inTable,named,own] using is

theorem gone_of_cascade {fk : Key} (listed : fk ∈ foreignKeys) (kind : fk.onDelete = .cascade) (was : p ∈ db.rows)
    (is : gone db userId p = true) (refers : fk.refers r p = true) : gone db userId r = true := by
  obtain ⟨user,wallet,webhook,payment,delivery,session,notLetter⟩ := gone_parent is
  obtain ⟨child,parent,some_,same⟩ := refers_iff.mp refers
  have found {test : Row → Bool} (held : test p = true) : isIn fk.column (valuesWhere fk.key fk.parent test db.rows) r = true :=
    (isIn_iff fk child).mpr ⟨p,was,held,refers⟩
  rcases cascading fk listed kind with ⟨among,is⟩ | is | is | is | is | is | is | is | is
  · rw [is] at parent same
    have own : equals .userId userId r = true := decide_eq_true (same.trans (of_decide_eq_true (user parent)))
    simp [gone,child,among,own]
  · subst is
    have own : r.table = .ingestionCursor := child
    have held : isIn .walletId (walletIds db userId) r = true := found (wallet parent)
    simp [gone,chosen,choices,inTable,own,held]
  · subst is
    have held : isIn .walletId (walletIds db userId) r = true := found (wallet parent)
    have goes : inTable .alertRule (isIn .walletId (walletIds db userId)) r = true := inTable_iff.mpr ⟨child,held⟩
    simp [gone,goes]
  · subst is
    have own : r.table = .webhookLog := child
    have held : isIn .webhookId (webhookIds db userId) r = true := found (webhook parent)
    simp [gone,chosen,choices,inTable,own,held]
  · subst is
    have own : r.table = .webhookCircuitBreaker := child
    have held : isIn .webhookId (webhookIds db userId) r = true := found (webhook parent)
    simp [gone,chosen,choices,inTable,own,held]
  · subst is
    have held : isIn .paymentId (paymentIds db userId) r = true := found (payment parent)
    have goes : inTable .notificationDelivery (isIn .paymentId (paymentIds db userId)) r = true := inTable_iff.mpr ⟨child,held⟩
    simp [gone,goes]
  · subst is
    have held : isIn .deliveryId (deliveryIds db userId) r = true := found (delivery parent)
    have goes : inTable .notificationDeliveryAttempt (isIn .deliveryId (deliveryIds db userId)) r = true := inTable_iff.mpr ⟨child,held⟩
    simp [gone,goes]
  · exact absurd (parent.trans is) notLetter
  · subst is
    have held : isIn .familyId (familyIds db userId) r = true := found (session parent)
    have goes : inTable .refreshTokenHistory (isIn .familyId (familyIds db userId)) r = true := inTable_iff.mpr ⟨child,held⟩
    simp [gone,goes]

theorem gone_of_doomed (goes : doomed foreignKeys db.rows (chosen db userId) r = true) : gone db userId r = true :=
  doomed_rec (fun _ => gone_of_chosen) (fun _ listed kind _ was is _ refers => gone_of_cascade listed kind was is refers) goes

theorem doomed_of_isIn (fk : Key) (listed : fk ∈ foreignKeys) (kind : fk.onDelete = .cascade) (was : r ∈ db.rows) (child : r.table = fk.child)
    {test : Row → Bool} (is : isIn fk.column (valuesWhere fk.key fk.parent test db.rows) r = true)
    (parents : ∀ p ∈ db.rows, p.table = fk.parent → test p = true → doomed foreignKeys db.rows (chosen db userId) p = true) :
    doomed foreignKeys db.rows (chosen db userId) r = true := by
  obtain ⟨p,wasToo,held,refers⟩ := (isIn_iff fk child).mp is
  exact doomed_cascade listed kind wasToo (parents p wasToo (refers_iff.mp refers).2.1 held) was refers

theorem doomed_of_choice {table : Table} {test : Row → Bool} (listed : inTable table test ∈ choices db userId) (own : r.table = table)
    (held : test r = true) : doomed foreignKeys db.rows (chosen db userId) r = true :=
  doomed_chosen (List.any_eq_true.mpr ⟨_,listed,inTable_iff.mpr ⟨own,held⟩⟩)

theorem owner_doomed {onDelete : Action} (listed : references r.table .userId .user onDelete ∈ foreignKeys) (was : r ∈ db.rows)
    (own : equals .userId userId r = true) : ∃ p ∈ db.rows, doomed foreignKeys db.rows (chosen db userId) p = true ∧
      (references r.table .userId .user onDelete).refers r p = true := by
  have value : r.value .userId = some userId := of_decide_eq_true own
  have some_ : (r.value .userId).isSome = true := by
    rw [value]
    rfl
  obtain ⟨p,wasToo,refers⟩ := db.integral _ listed r was rfl some_
  have isUser : p.table = .user := (refers_iff.mp refers).2.1
  have same : r.value .userId = p.value .id := (refers_iff.mp refers).2.2.2
  have held : equals .id userId p = true := decide_eq_true (same.symm.trans value)
  have goes : doomed foreignKeys db.rows (chosen db userId) p = true := doomed_of_choice (by simp [choices]) isUser held
  exact ⟨p,wasToo,goes,refers⟩

theorem doomed_of_named (was : r ∈ db.rows) (among : r.table ∈ named) (own : equals .userId userId r = true) :
    doomed foreignKeys db.rows (chosen db userId) r = true := by
  have listed : ∀ table ∈ named, references table .userId .user .cascade ∈ foreignKeys := by decide
  obtain ⟨p,wasToo,goes,refers⟩ := owner_doomed (listed _ among) was own
  exact doomed_cascade (listed _ among) rfl wasToo goes was refers

theorem doomed_of_delivery (was : r ∈ db.rows) (isDelivery : r.table = .notificationDelivery) (held : isIn .paymentId (paymentIds db userId) r = true) :
    doomed foreignKeys db.rows (chosen db userId) r = true :=
  doomed_of_isIn (references .notificationDelivery .paymentId .payment .cascade) (by decide) rfl was isDelivery held
    fun p _ (isPayment : p.table = .payment) owned => doomed_of_choice (by simp [choices]) isPayment owned

theorem doomed_of_gone (was : r ∈ db.rows) (is : gone db userId r = true) : doomed foreignKeys db.rows (chosen db userId) r = true := by
  simp only [gone,Bool.or_eq_true,Bool.and_eq_true,decide_eq_true_eq,inTable_iff] at is
  obtain ((((first | ⟨among,own⟩) | ⟨isRule,held⟩) | ⟨isDelivery,held⟩) | ⟨isAttempt,held⟩) | ⟨isHistory,held⟩ := is
  · exact doomed_chosen first
  · exact doomed_of_named was among own
  · exact doomed_of_isIn (references .alertRule .walletId .wallet .cascade) (by decide) rfl was isRule held
      fun p _ (isWallet : p.table = .wallet) owned => doomed_of_choice (by simp [choices]) isWallet owned
  · exact doomed_of_delivery was isDelivery held
  · exact doomed_of_isIn (references .notificationDeliveryAttempt .deliveryId .notificationDelivery .cascade) (by decide) rfl was isAttempt held
      fun p wasToo isDelivery paid => doomed_of_delivery wasToo isDelivery paid
  · exact doomed_of_isIn ⟨.refreshTokenHistory,.familyId,.refreshSession,.familyId,.cascade⟩ (by decide) rfl was isHistory held
      fun p wasToo (isSession : p.table = .refreshSession) own => doomed_of_named wasToo (by rw [isSession]; decide) own

theorem doomed_eq_gone (was : r ∈ db.rows) : doomed foreignKeys db.rows (chosen db userId) r = gone db userId r :=
  Bool.eq_iff_iff.mpr ⟨gone_of_doomed,doomed_of_gone was⟩

theorem gone_cases (is : gone db userId r = true) :
    inTable .user (equals .id userId) r = true ∨ equals .userId userId r = true ∨ hangs db userId r = true := by
  simp only [gone,chosen,choices,hangs,List.any_cons,List.any_nil,Bool.or_false,Bool.or_eq_true,Bool.and_eq_true,inTable_iff] at is ⊢
  tauto

/-! What is set to null. -/

theorem nulling : ∀ fk ∈ foreignKeys, fk.onDelete = .setNull →
    fk = references fk.child .userId .user .setNull ∨ fk = references fk.child .paymentId .payment .setNull := by decide

theorem forgets_cases {column : Column} (is : forgets foreignKeys db.rows (doomed foreignKeys db.rows (chosen db userId)) r column = true) :
    equals .userId userId r = true ∨ isIn .paymentId (paymentIds db userId) r = true := by
  obtain ⟨fk,listed,kind,-,p,was,goes,refers⟩ := forgets_iff.mp is
  obtain ⟨user,-,-,payment,-,-,-⟩ := gone_parent (gone_of_doomed goes)
  rcases nulling fk listed kind with is | is
  · rw [is] at refers
    obtain ⟨-,parent,-,same⟩ := refers_iff.mp refers
    exact .inl (decide_eq_true (same.trans (of_decide_eq_true (user parent))))
  · rw [is] at refers
    obtain ⟨child,parent,-,-⟩ := refers_iff.mp refers
    exact .inr ((isIn_iff (references fk.child .paymentId .payment .setNull) child).mpr ⟨p,was,payment parent,refers⟩)

theorem forgets_user (was : r ∈ db.rows) (among : r.table ∈ [Table.notificationDelivery,.notificationDeliveryAttempt,.deadLetter])
    (own : equals .userId userId r = true) :
    forgets foreignKeys db.rows (doomed foreignKeys db.rows (chosen db userId)) r .userId = true := by
  have listed : ∀ table ∈ [Table.notificationDelivery,.notificationDeliveryAttempt,.deadLetter],
      references table .userId .user .setNull ∈ foreignKeys := by decide
  obtain ⟨p,wasToo,goes,refers⟩ := owner_doomed (listed _ among) was own
  exact forgets_iff.mpr ⟨_,listed _ among,rfl,rfl,p,wasToo,goes,refers⟩

theorem forgets_payment (among : r.table ∈ [Table.notificationDeliveryAttempt,.deadLetter]) (is : isIn .paymentId (paymentIds db userId) r = true) :
    forgets foreignKeys db.rows (doomed foreignKeys db.rows (chosen db userId)) r .paymentId = true := by
  have listed : ∀ table ∈ [Table.notificationDeliveryAttempt,.deadLetter], references table .paymentId .payment .setNull ∈ foreignKeys := by decide
  obtain ⟨p,was,owned,refers⟩ := (isIn_iff (references r.table .paymentId .payment .setNull) rfl).mp is
  have isPayment : p.table = .payment := (refers_iff.mp refers).2.1
  have goes : doomed foreignKeys db.rows (chosen db userId) p = true := doomed_of_choice (by simp [choices]) isPayment owned
  exact forgets_iff.mpr ⟨_,listed _ among,rfl,rfl,p,was,goes,refers⟩

end Gone

section Account
variable {db : Database} {userId : String} {outage : Nat → Option String} {now : String}

theorem error_kept {message : String} (failed : (deleteAccount outage now userId db).1 = .error message) :
    (deleteAccount outage now userId db).2 = db := by
  rw [deleteAccount,transaction] at failed ⊢
  split at failed
  · cases failed
  · rfl

section Existing
variable (exists_ : ∃ r ∈ db.rows, inTable .user (equals .id userId) r = true)
include exists_

theorem ok_rows {summary : DeletionSummary} (ok : (deleteAccount outage now userId db).1 = .ok summary) :
    (∀ r ∈ db.rows, r.table = .paymentChecksum → isIn .paymentId (paymentIds db userId) r = false) ∧
      (deleteAccount outage now userId db).2.rows = removed foreignKeys db.rows (chosen db userId) := by
  rw [deleteAccount,transaction] at ok ⊢
  split at ok
  next a s db' ran =>
    obtain ⟨may,left⟩ := (deleteRows_runs exists_).ends a _ ran
    exact ⟨may,left.eq⟩
  next => cases ok

theorem ok_of_unsummed (unsummed : ∀ r ∈ db.rows, r.table = .paymentChecksum → isIn .paymentId (paymentIds db userId) r = false) :
    ∃ summary, (deleteAccount (fun _ => none) now userId db).1 = .ok summary := by
  obtain ⟨summary,s',ran⟩ := (@deleteRows_runs db userId (fun _ => none) now exists_).runs unsummed fun _ => rfl
  refine ⟨summary,?_⟩
  rw [deleteAccount,transaction,ran]

end Existing

/-! What a row of a table may hold. -/

variable {r : Row}

variable {column : Column}

theorem column_listed (was : r ∈ db.rows) (held : (r.value column).isSome = true) : column ∈ r.table.columns := by
  by_contra missing
  rw [db.shaped r was column missing] at held
  cases held

theorem isSome_of_equals {value : String} (is : equals column value r = true) : (r.value column).isSome = true := by
  rw [show r.value column = some value from of_decide_eq_true is]
  rfl

theorem isSome_of_isIn {values : List String} (is : isIn column values r = true) : (r.value column).isSome = true := by
  obtain ⟨value,own,-⟩ := (Option.any_eq_true _ _).mp is
  rw [own]
  rfl

variable {table : Table}

theorem tables_userId (listed : .userId ∈ table.columns) : table ∈ [Table.wallet,.notificationPreference,.webhook] ∨
    table ∈ named ∨ table ∈ [Table.notificationDelivery,.notificationDeliveryAttempt,.deadLetter] ∨ table = .refreshTokenHistory := by
  cases table <;> revert listed <;> decide

theorem tables_actorUserId (listed : .actorUserId ∈ table.columns) : table = .deadLetterAudit := by
  cases table <;> revert listed <;> decide

theorem tables_walletId (listed : .walletId ∈ table.columns) :
    table = .ingestionCursor ∨ table = .payment ∨ table = .paymentArchive ∨ table = .alertRule := by
  cases table <;> revert listed <;> decide

theorem tables_webhookId (listed : .webhookId ∈ table.columns) : table = .webhookLog ∨ table = .webhookCircuitBreaker := by
  cases table <;> revert listed <;> decide

theorem tables_paymentId (listed : .paymentId ∈ table.columns) : table = .paymentChecksum ∨ table = .notificationDelivery ∨
    table ∈ [Table.notificationDeliveryAttempt,.deadLetter] := by
  cases table <;> revert listed <;> decide

theorem tables_deliveryId (listed : .deliveryId ∈ table.columns) : table = .notificationDeliveryAttempt := by
  cases table <;> revert listed <;> decide
theorem tables_familyId (listed : .familyId ∈ table.columns) : table = .refreshSession ∨ table = .refreshTokenHistory := by
  cases table <;> revert listed <;> decide

/-! Whose rows are touched. -/

theorem owner_eq (was : r ∈ db.rows) {owner : String} (owned : Owned db owner r)
    (is : inTable .user (equals .id userId) r = true ∨ equals .userId userId r = true) : owner = userId := by
  rcases is with is | is
  · obtain ⟨isUser,named⟩ := inTable_iff.mp is
    have value : r.value .id = some userId := of_decide_eq_true named
    cases owned with
    | account _ own => exact Option.some.inj (own.symm.trans value)
    | own own =>
      have listed := column_listed was (by rw [own]; rfl : (r.value .userId).isSome = true)
      rw [isUser] at listed
      exact absurd listed (by decide)
    | through other => exact absurd isUser other
  · have value : r.value .userId = some userId := of_decide_eq_true is
    cases owned with
    | account isUser _ =>
      have listed := column_listed was (isSome_of_equals is)
      rw [isUser] at listed
      exact absurd listed (by decide)
    | own own => exact Option.some.inj (own.symm.trans value)
    | through _ none_ =>
      rw [none_] at value
      cases value

theorem other_kept (apart : ∀ r ∈ db.rows, hangs db userId r = true → ∀ owner, owner ≠ userId → ¬ Owned db owner r)
    (was : r ∈ db.rows) {owner : String} (other : owner ≠ userId) (owned : Owned db owner r) :
    r ∈ removed foreignKeys db.rows (chosen db userId) := by
  refine mem_removed.mpr ⟨r,was,?_,forget_eq fun column lost => ?_⟩
  · rw [← Bool.not_eq_true]
    intro goes
    rcases gone_cases (gone_of_doomed goes) with isUser | named | hanging
    · exact other (owner_eq was owned (.inl isUser))
    · exact other (owner_eq was owned (.inr named))
    · exact apart r was hanging owner other owned
  · exfalso
    rcases forgets_cases lost with named | paid
    · exact other (owner_eq was owned (.inr named))
    · exact apart r was (by simp [hangs,paid]) owner other owned

theorem names_left (deletable : Deletable db userId) {r' : Row} (there : r' ∈ removed foreignKeys db.rows (chosen db userId)) :
    names db userId r' = false := by
  obtain ⟨r,was,stays,rfl⟩ := mem_removed.mp there
  rw [doomed_eq_gone was] at stays
  rw [← Bool.not_eq_true]
  intro is
  simp only [names,Bool.or_eq_true] at is
  have before {column : Column} (some_ : ((forget foreignKeys db.rows (doomed foreignKeys db.rows (chosen db userId)) r).value column).isSome = true) :
      (forget foreignKeys db.rows (doomed foreignKeys db.rows (chosen db userId)) r).value column = r.value column := value_of_forget some_
  have goes : gone db userId r = true := by
    obtain ((isUser | own) | actor) | wallet := is
    · rw [stable_equals (by decide)] at isUser
      obtain ⟨isTable,named⟩ := inTable_iff.mp isUser
      simp [gone,chosen,choices,inTable,isTable,named]
    · have value := before (isSome_of_equals own)
      have was' : equals .userId userId r = true := by
        rw [equals,← value]
        exact own
      rcases tables_userId (column_listed was (isSome_of_equals was')) with among | among | among | isHistory
      · have listed : ∀ table ∈ [Table.wallet,.notificationPreference,.webhook], inTable table (equals .userId userId) ∈ choices db userId := by
          simp [choices]
        exact gone_of_chosen (List.any_eq_true.mpr ⟨_,listed _ among,inTable_iff.mpr ⟨rfl,was'⟩⟩)
      · simp [gone,among,was']
      · have some_ := isSome_of_equals own
        rw [forget_value,forgets_user was among was'] at some_
        cases some_
      · have held := deletable.sessions r was isHistory was'
        simp [gone,inTable,isHistory,held]
    · have value := before (isSome_of_equals actor)
      have was' : equals .actorUserId userId r = true := by
        rw [equals,← value]
        exact actor
      rw [deletable.unaudited r was] at was'
      cases was'
    · have value := before (isSome_of_isIn wallet)
      have was' : isIn .walletId (walletIds db userId) r = true := by
        rw [isIn,← value]
        exact wallet
      rcases tables_walletId (column_listed was (isSome_of_isIn was')) with own | own | own | own
      · simp [gone,chosen,choices,inTable,own,was']
      · simp [gone,chosen,choices,inTable,own,was']
      · rw [deletable.unarchived r was own] at was'
        cases was'
      · simp [gone,inTable,own,was']
  rw [goes] at stays
  cases stays

theorem untouched (was : r ∈ db.rows) (still : r ∈ removed foreignKeys db.rows (chosen db userId)) :
    gone db userId r = false ∧ ∀ column, forgets foreignKeys db.rows (doomed foreignKeys db.rows (chosen db userId)) r column = true →
      r.value column = none := by
  obtain ⟨r₀,was₀,stays,same⟩ := mem_removed.mp still
  have table : r₀.table = r.table := by
    rw [← same]
    rfl
  have id : r₀.value .id = r.value .id := by
    rw [← same,id_kept]
  obtain rfl := db.ids r₀ was₀ r was table id
  rw [doomed_eq_gone was] at stays
  refine ⟨stays,fun column lost => ?_⟩
  rw [← same,forget_value,if_pos lost]

theorem hanging_touched (unsummed : ∀ r ∈ db.rows, r.table = .paymentChecksum → isIn .paymentId (paymentIds db userId) r = false)
    (unarchived : ∀ r ∈ db.rows, r.table = .paymentArchive → isIn .walletId (walletIds db userId) r = false)
    (was : r ∈ db.rows) (hanging : hangs db userId r = true) : r ∉ removed foreignKeys db.rows (chosen db userId) := by
  intro still
  obtain ⟨stays,kept⟩ := untouched was still
  have gone_not (goes : gone db userId r = true) : False := by
    rw [goes] at stays
    cases stays
  simp only [hangs,Bool.or_eq_true] at hanging
  obtain (((held | held) | held) | held) | held := hanging
  · rcases tables_webhookId (column_listed was (isSome_of_isIn held)) with own | own
    all_goals exact gone_not (by simp [gone,chosen,choices,inTable,own,held])
  · rcases tables_walletId (column_listed was (isSome_of_isIn held)) with own | own | own | own
    · exact gone_not (by simp [gone,chosen,choices,inTable,own,held])
    · exact gone_not (by simp [gone,chosen,choices,inTable,own,held])
    · rw [unarchived r was own] at held
      cases held
    · exact gone_not (by simp [gone,inTable,own,held])
  · rcases tables_paymentId (column_listed was (isSome_of_isIn held)) with own | own | among
    · rw [unsummed r was own] at held
      cases held
    · exact gone_not (by simp [gone,inTable,own,held])
    · have some_ := isSome_of_isIn held
      rw [kept _ (forgets_payment among held)] at some_
      cases some_
  · have own := tables_deliveryId (column_listed was (isSome_of_isIn held))
    exact gone_not (by simp [gone,inTable,own,held])
  · rcases tables_familyId (column_listed was (isSome_of_isIn held)) with own | own
    · obtain ⟨family,value,listed⟩ := (Option.any_eq_true _ _).mp held
      obtain ⟨p,wasToo,same⟩ := List.mem_filterMap.mp (of_decide_eq_true listed)
      split at same
      next both =>
        obtain ⟨isSession,named⟩ := inTable_iff.mp both
        obtain rfl := db.families p wasToo r was isSession own (same.trans value.symm)
        have among : p.table ∈ AccountErasure.named := by
          rw [isSession]
          decide
        exact gone_not (by simp [gone,among,named])
      next => cases same
    · exact gone_not (by simp [gone,inTable,own,held])

theorem left_unnamed (nobody : ∀ r ∈ removed foreignKeys db.rows (chosen db userId), names db userId r = false) (was : r ∈ db.rows)
    (stays : gone db userId r = false) (kept : ∀ fk ∈ foreignKeys, fk.onDelete = .setNull → fk.child ≠ r.table) :
    names db userId r = false := by
  have whole : forget foreignKeys db.rows (doomed foreignKeys db.rows (chosen db userId)) r = r := by
    refine forget_eq fun column lost => ?_
    obtain ⟨fk,listed,kind,_,_,_,_,refers⟩ := forgets_iff.mp lost
    exact absurd (refers_iff.mp refers).1.symm (kept fk listed kind)
  refine nobody r (mem_removed.mpr ⟨r,was,?_,whole⟩)
  rw [doomed_eq_gone was,stays]

theorem account_erased (exists_ : ∃ r ∈ db.rows, inTable .user (equals .id userId) r = true) : Correct db userId ↔ Deletable db userId := by
  constructor
  · intro correct
    obtain ⟨⟨summary,ok⟩,nobody⟩ := correct.deleted ""
    obtain ⟨unsummed,rows⟩ := ok_rows exists_ ok
    rw [rows] at nobody
    have unarchived : ∀ r ∈ db.rows, r.table = .paymentArchive → isIn .walletId (walletIds db userId) r = false := by
      intro r was own
      have left := left_unnamed nobody was (by simp [gone,chosen,choices,inTable,own,named]) (by rw [own]; decide)
      simp only [names,Bool.or_eq_false_iff] at left
      exact left.2
    refine ⟨unsummed,unarchived,?_,?_,?_⟩
    · intro r was
      rw [← Bool.not_eq_true]
      intro is
      have own := tables_actorUserId (column_listed was (isSome_of_equals is))
      have left := left_unnamed nobody was (by simp [gone,chosen,choices,inTable,own,named]) (by rw [own]; decide)
      simp [names,is] at left
    · intro r was own is
      cases held : isIn .familyId (familyIds db userId) r with
      | true => rfl
      | false =>
        have left := left_unnamed nobody was (by simp [gone,chosen,choices,inTable,own,named,held]) (by rw [own]; decide)
        simp [names,is] at left
    · intro r was hanging owner other owned
      have still := correct.others (fun _ => none) "" owner other r was owned
      rw [rows] at still
      exact hanging_touched unsummed unarchived was hanging still
  · intro deletable
    refine ⟨fun _ _ _ => error_kept,fun now => ?_,?_⟩
    · obtain ⟨summary,ok⟩ := @ok_of_unsummed db userId now exists_ deletable.unsummed
      refine ⟨⟨summary,ok⟩,?_⟩
      rw [(ok_rows exists_ ok).2]
      exact fun r there => names_left deletable there
    · intro outage now owner other r was owned
      cases result : (deleteAccount outage now userId db).1 with
      | error message =>
        rw [error_kept result]
        exact was
      | ok summary =>
        rw [(ok_rows exists_ result).2]
        exact other_kept deletable.apart was other owned

end Account

def row (table : Table) (values : List (Column × String)) : Row := ⟨table,fun column => values.lookup column,""⟩

/-- A user with a wallet and a payment. -/
def paid : List Row :=
  [row .user [(.id,"user-1")],
    row .wallet [(.id,"wallet-1"),(.userId,"user-1")],
    row .payment [(.id,"payment-1"),(.walletId,"wallet-1")]]

/-- The payment is in the chain of checksums. -/
def summed : List Row := row .paymentChecksum [(.id,"checksum-1"),(.paymentId,"payment-1")] :: paid

theorem shaped_paid : ∀ r ∈ summed, ∀ column, column ∉ r.table.columns → r.value column = none := by
  intro r listed column
  revert r
  cases column <;> decide

theorem once_of_nodup {rows : List Row} (once : (rows.map ForeignKeys.Row.table).Nodup) {p q : Row} (first : p ∈ rows) (second : q ∈ rows)
    (same : p.table = q.table) : p = q := List.inj_on_of_nodup_map once first second same

def paidDatabase : Database where
  rows := paid
  shaped := fun r listed => shaped_paid r (List.mem_cons_of_mem _ listed)
  ids := fun _ first _ second same _ => once_of_nodup (by decide) first second same
  families := fun _ first _ second isSession isSessionToo _ => once_of_nodup (by decide) first second (isSession.trans isSessionToo.symm)
  integral := by
    unfold Integral
    decide +kernel

def summedDatabase : Database where
  rows := summed
  shaped := shaped_paid
  ids := fun _ first _ second same _ => once_of_nodup (by decide) first second same
  families := fun _ first _ second isSession isSessionToo _ => once_of_nodup (by decide) first second (isSession.trans isSessionToo.symm)
  integral := by
    unfold Integral
    decide +kernel

theorem account_erased_paid : Correct paidDatabase "user-1" := by
  refine (@account_erased paidDatabase "user-1" (by decide +kernel)).mpr
    ⟨by decide +kernel,by decide +kernel,by decide +kernel,by decide +kernel,?_⟩
  intro r was hanging owner other owned
  have payments : ∀ r ∈ paid, hangs paidDatabase "user-1" r = true → r.table = .payment ∧ r.value .userId = none := by decide +kernel
  have wallets : ∀ r ∈ paid, ∀ p ∈ paid, r.table = .payment → belongs r p = true → equals .userId "user-1" p = true := by decide +kernel
  obtain ⟨isPayment,none_⟩ := payments r was hanging
  cases owned with
  | account isUser _ => exact absurd (isPayment.symm.trans isUser) (by decide)
  | own own =>
    rw [none_] at own
    cases own
  | through _ _ wasToo among ownedToo => exact other (owner_eq wasToo ownedToo (.inr (wallets r was _ wasToo isPayment among)))

/-- A payment with a checksum keeps the account. -/
theorem account_kept : ¬ ∀ (db : Database) (userId : String), (∃ r ∈ db.rows, inTable .user (equals .id userId) r = true) → Correct db userId := by
  intro always
  have exists_ : ∃ r ∈ summedDatabase.rows, inTable .user (equals .id "user-1") r = true := by decide +kernel
  obtain ⟨⟨summary,ok⟩,-⟩ := (always summedDatabase "user-1" exists_).deleted ""
  have unsummed := (ok_rows exists_ ok).1
  revert unsummed
  decide +kernel

end StellarAlerts.AccountErasure
