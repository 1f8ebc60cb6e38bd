import StellarAlerts.HorizonRecords
import StellarAlerts.RisingLogs
import StellarAlerts.WatcherCursor

/-!
The first sync of a wallet: its cursor is seeded with the token of the account's latest
payment, so that nothing from before is replayed. The lookup of that token answers "0"
both for an account without payments and for a request that failed; so the cursor is
where it should be exactly where the latest payment was really read (`seeded_iff`).
-/
namespace StellarAlerts.FirstSync
open JsonTexts HorizonRecords RisingLogs Actions Watcher IntegerText
open Horizon (orElse)
open CursorRecovery (IngestionCursor)

structure PaymentHistory extends Log fun record : Json => decimal (pagingToken record) where
  positive : ∀ record ∈ entries, 0 < decimal (pagingToken record)

/-- What becomes of the request: a node that has ingested this many of the account's
    payments answers it, or it ends in an error or a timeout. -/
inductive Lookup where
  | answered (ingested : Nat)
  | failed (error : String)
  deriving DecidableEq, Repr

/-- `.order('desc').limit(limit).call()`: the latest records that the node knows. -/
def latestRecords (history : PaymentHistory) (limit : Nat) : Lookup → Except String Json
  | .answered ingested => .ok (.array ((history.entries.take ingested).reverse.take limit))
  | .failed error => .error error

section
variable (isValidEd25519PublicKey : String → Bool)

def getRecentPayments (publicKey : String) (answer : Nat → Except String Json) (limit : Nat) : List Json :=
  if publicKey = "" ∨ isValidEd25519PublicKey publicKey = false then []
  else
    match answer limit with
    | .ok records => asHorizonOperationRecords records
    | .error _ => []

def getLatestPagingToken (publicKey : String) (answer : Nat → Except String Json) : String :=
  match getRecentPayments isValidEd25519PublicKey publicKey answer 1 with
  | [] => "0"
  | record :: _ => orElse (pagingToken record) "0"

end

variable {p : Platform}

/-- The calls that can fail; the lookup of the latest token answers in every case. -/
def databaseFails (fails : CatchUpStage → Option String) : CatchUpStage → Option String
  | .getLatestPagingToken => none
  | stage => fails stage

/-- `ensureCursor` with the lookup that it makes. -/
def firstSync (wallet : Wallet) (history : PaymentHistory) (lookup : Lookup) (fails : CatchUpStage → Option String)
    (world : World p) : Except String String × World p :=
  exec (ensureCursor wallet (databaseFails fails)
    (getLatestPagingToken p.isValidEd25519PublicKey wallet.publicKey fun limit => latestRecords history limit lookup)) world

def PastAll (history : PaymentHistory) (existing : Nat) (cursor : String) : Prop :=
  ∀ record ∈ history.entries.take existing, decimal (pagingToken record) ≤ decimal cursor

/-- A cursor behind all payments that existed is stored, or none is and the call
    fails; and an error of Horizon stores no cursor of 0 for an account with payments. -/
def Seeded (wallet : Wallet) (history : PaymentHistory) (existing : Nat) (lookup : Lookup)
    (ended : Except String String × World p) : Prop :=
  ((∃ cursor, ended.2.pagingToken wallet.id = some cursor ∧ PastAll history existing cursor) ∨
    (ended.2.pagingToken wallet.id = none ∧ ∃ error, ended.1 = .error error)) ∧
  ((∃ error, lookup = .failed error) → history.entries.take existing ≠ [] → ended.2.pagingToken wallet.id ≠ some "0")

/-- The request reached a node that had ingested what existed, and the latest of its records is an operation record. -/
def LatestRead (publicKey : String) (isValidEd25519PublicKey : String → Bool) (history : PaymentHistory) (existing : Nat)
    (lookup : Lookup) : Prop :=
  publicKey ≠ "" ∧ isValidEd25519PublicKey publicKey = true ∧
    ∃ ingested, lookup = .answered ingested ∧ (history.entries.take existing).length ≤ ingested ∧
      ∀ record ∈ (history.entries.take ingested).getLast?, isHorizonOperationRecord record = true

variable {history : PaymentHistory} {existing ingested : Nat} {wallet : Wallet}

theorem latest_past {record : Json} (latest : (history.entries.take ingested).getLast? = some record) :
    PastAll history existing (pagingToken record) ↔ (history.entries.take existing).length ≤ ingested := by
  rw [List.getLast?_eq_getElem?] at latest
  obtain ⟨bound,is⟩ := List.getElem?_eq_some_iff.mp latest
  rw [List.getElem_take] at is
  rw [List.length_take] at bound ⊢
  have rising := List.pairwise_iff_getElem.mp history.rising
  constructor
  · intro past
    by_contra beyond
    have within : ingested < history.entries.length := by omega
    have listed : history.entries[ingested] ∈ history.entries.take existing :=
      List.mem_take_iff_getElem.mpr ⟨ingested,by omega,rfl⟩
    have le := past _ listed
    have lt := rising ((history.entries.take ingested).length - 1) ingested (by simp; omega) within (by simp; omega)
    rw [is] at lt
    omega
  · intro enough other listed
    obtain ⟨i,early,rfl⟩ := List.mem_take_iff_getElem.mp listed
    have index : i ≤ (history.entries.take ingested).length - 1 := by simp; omega
    rcases Nat.lt_or_eq_of_le index with lt | same
    · have below := rising i ((history.entries.take ingested).length - 1) (by omega) (by simp; omega) lt
      rw [is] at below
      exact Nat.le_of_lt below
    · simp only [same,is]
      exact Nat.le_refl _

theorem zero_past : PastAll history existing "0" ↔ history.entries.take existing = [] := by
  constructor
  · intro past
    refine List.eq_nil_iff_forall_not_mem.mpr fun record listed => ?_
    have le := past record listed
    have lt := history.positive record (List.mem_of_mem_take listed)
    have zero : decimal "0" = 0 := rfl
    omega
  · intro none record listed
    rw [none] at listed
    cases listed

theorem reverse_take_one {α : Type} (items : List α) : items.reverse.take 1 = items.getLast?.toList := by
  rw [← List.head?_reverse]
  cases items.reverse with
  | nil => rfl
  | cons a rest => rfl

theorem token_past (valid : String → Bool) (publicKey : String) (lookup : Lookup) :
    PastAll history existing
        (getLatestPagingToken valid publicKey fun limit => latestRecords history limit lookup) ↔
      history.entries.take existing = [] ∨ LatestRead publicKey valid history existing lookup := by
  by_cases usable : publicKey = "" ∨ valid publicKey = false
  · have unread : ¬ LatestRead publicKey valid history existing lookup := by
      rintro ⟨some_,isValid,_⟩
      rcases usable with empty | invalid
      · exact some_ empty
      · rw [isValid] at invalid
        cases invalid
    rw [getLatestPagingToken,getRecentPayments,if_pos usable,zero_past]
    simp [unread]
  obtain ⟨some_,isValid⟩ : publicKey ≠ "" ∧ valid publicKey = true := by simpa using usable
  rw [getLatestPagingToken,getRecentPayments,if_neg usable]
  cases lookup with
  | failed error =>
    have unread : ¬ LatestRead publicKey valid history existing (.failed error) := by
      rintro ⟨_,_,ingested,is,_⟩
      cases is
    simp only [latestRecords,zero_past,unread,or_false]
  | answered ingested =>
    have read : LatestRead publicKey valid history existing (.answered ingested) ↔
        (history.entries.take existing).length ≤ ingested ∧
          ∀ record ∈ (history.entries.take ingested).getLast?, isHorizonOperationRecord record = true := by
      simp [LatestRead,some_,isValid]
    rw [read]
    simp only [latestRecords,reverse_take_one,asHorizonOperationRecords]
    cases latest : (history.entries.take ingested).getLast? with
    | none =>
      have empty := List.getLast?_eq_none_iff.mp latest
      simp only [Option.toList_none,List.filter_nil,zero_past,Option.not_mem_none,false_implies,implies_true,and_true]
      constructor
      · exact Or.inl
      · rintro (none | enough)
        · exact none
        · have zero := congrArg List.length empty
          rw [List.length_take] at zero enough
          refine List.eq_nil_of_length_eq_zero ?_
          simp only [List.length_take,List.length_nil] at zero ⊢
          omega
    | some record =>
      have past : PastAll history existing (pagingToken record) ↔ (history.entries.take existing).length ≤ ingested :=
        latest_past latest
      have positive := history.positive record (List.mem_of_mem_take (List.mem_of_getLast? latest))
      cases operation : isHorizonOperationRecord record with
      | false =>
        simp only [Option.toList_some,List.filter_singleton,operation,cond_false,zero_past,Option.mem_some_iff,forall_eq',
          Bool.false_eq_true,and_false,or_false]
      | true =>
        have named : pagingToken record ≠ "" := by
          intro empty
          rw [empty] at positive
          exact absurd positive (by decide)
        simp only [Option.toList_some,List.filter_singleton,operation,cond_true,Option.mem_some_iff,forall_eq',and_true,
          orElse,named,↓reduceIte]
        rw [past]
        constructor
        · exact Or.inr
        · rintro (none | enough)
          · simp [none]
          · exact enough

abbrev latestToken (p : Platform) (wallet : Wallet) (history : PaymentHistory) (lookup : Lookup) : String :=
  getLatestPagingToken p.isValidEd25519PublicKey wallet.publicKey fun limit => latestRecords history limit lookup

variable {fails : CatchUpStage → Option String}

theorem firstSync_stores (wallet : Wallet) (history : PaymentHistory) {world : World p}
    (unseen : world.ingestionCursor wallet.id = none) (lookup : Lookup) (finds : fails .findCursor = none)
    (upserts : fails .upsertCursor = none) :
    (firstSync wallet history lookup fails world).1 = .ok (latestToken p wallet history lookup) ∧
      (firstSync wallet history lookup fails world).2.pagingToken wallet.id = some (latestToken p wallet history lookup) := by
  have ends : Ends (ensureCursor wallet (databaseFails fails) (latestToken p wallet history lookup)) world
      (fun outcome after => outcome = .ok (latestToken p wallet history lookup) ∧
        after.pagingToken wallet.id = some (latestToken p wallet history lookup)) := by
    rw [ensureCursor,ends_bind,ends_reach]
    simp only [databaseFails,finds,ends_bind,ends_get,unseen,ends_reach,upserts,ends_modify,ends_pure]
    exact ⟨trivial,setCursor_token ..⟩
  exact ends

theorem firstSync_fails (wallet : Wallet) (history : PaymentHistory) {world : World p}
    (unseen : world.ingestionCursor wallet.id = none) (lookup : Lookup)
    (failing : fails .findCursor ≠ none ∨ fails .upsertCursor ≠ none) :
    (∃ error, (firstSync wallet history lookup fails world).1 = .error error) ∧
      (firstSync wallet history lookup fails world).2 = world := by
  have ends : Ends (ensureCursor wallet (databaseFails fails) (latestToken p wallet history lookup)) world
      (fun outcome after => (∃ error, outcome = .error error) ∧ after = world) := by
    rw [ensureCursor,ends_bind,ends_reach]
    cases finds : fails .findCursor with
    | some error =>
      simp only [databaseFails,finds]
      exact ⟨⟨error,rfl⟩,trivial⟩
    | none =>
      cases upserts : fails .upsertCursor with
      | some error =>
        simp only [databaseFails,finds,ends_bind,ends_get,unseen,ends_reach,upserts]
        exact ⟨⟨error,rfl⟩,trivial⟩
      | none => simp [finds,upserts] at failing
  exact ends

/-- For every wallet without a cursor, every history of its account and every outcome of the lookup: the first sync is what it should be
    if and only if the database fails, no payment existed, or the latest was read. -/
theorem seeded_iff {world : World p} (wallet : Wallet) (unseen : world.ingestionCursor wallet.id = none)
    (history : PaymentHistory) (existing : Nat) (lookup : Lookup) (fails : CatchUpStage → Option String) :
    Seeded wallet history existing lookup (firstSync wallet history lookup fails world) ↔
      (fails .findCursor ≠ none ∨ fails .upsertCursor ≠ none) ∨ history.entries.take existing = [] ∨
        LatestRead wallet.publicKey p.isValidEd25519PublicKey history existing lookup := by
  by_cases failing : fails .findCursor ≠ none ∨ fails .upsertCursor ≠ none
  · obtain ⟨failed,same⟩ := firstSync_fails wallet history unseen lookup failing
    have nothing : (firstSync wallet history lookup fails world).2.pagingToken wallet.id = none := by
      simp [same,World.pagingToken,unseen]
    refine iff_of_true ⟨.inr ⟨nothing,failed⟩,fun _ _ => ?_⟩ (.inl failing)
    rw [nothing]
    exact fun is => by cases is
  · obtain ⟨finds,upserts⟩ : fails .findCursor = none ∧ fails .upsertCursor = none := by simpa using failing
    obtain ⟨answered,stored⟩ := firstSync_stores wallet history unseen lookup finds upserts
    rw [or_iff_right failing,← token_past,Seeded,stored,answered]
    simp only [Option.some.injEq,exists_eq_left',reduceCtorEq,or_false,ne_eq,exists_false,and_false]
    constructor
    · exact fun seeded => seeded.1
    · intro past
      refine ⟨past,fun failed some_ zero => some_ ?_⟩
      rw [← zero_past,← zero]
      exact past

section Sample

/-- One payment from before the wallet was added. -/
def samplePayments : PaymentHistory where
  entries := [.object [("type",.string "account_merge"),("paging_token",.string "7000"),
    ("created_at",.string "2024-01-01T00:00:00Z"),("transaction_hash",.string "aa")]]
  rising := by decide
  positive := by decide

theorem seeded_sample : Seeded sampleWallet samplePayments 1 (.answered 1)
    (firstSync sampleWallet samplePayments (.answered 1) (fun _ => none) (World.empty (p := plain))) :=
  (seeded_iff (p := plain) sampleWallet rfl samplePayments 1 (.answered 1) fun _ => none).mpr
    (.inr (.inr ⟨by decide,by decide,1,rfl,by decide,by decide⟩))

/-- An error of Horizon seeds the cursor 0, although the account has a payment. -/
theorem unread_latest : ¬ ∀ (wallet : Wallet) (world : World plain), world.ingestionCursor wallet.id = none →
    ∀ (history : PaymentHistory) (existing : Nat) (lookup : Lookup) (fails : CatchUpStage → Option String),
      Seeded wallet history existing lookup (firstSync wallet history lookup fails world) := by
  intro all
  have seeded := all sampleWallet .empty rfl samplePayments 1 (.failed "timeout") fun _ => none
  have unseen : (World.empty (p := plain)).ingestionCursor sampleWallet.id = none := rfl
  have stored : (firstSync sampleWallet samplePayments (.failed "timeout") (fun _ => none) .empty).2.pagingToken "w1" =
      some "0" := (firstSync_stores sampleWallet samplePayments unseen (.failed "timeout") rfl rfl).2
  exact seeded.2 ⟨"timeout",rfl⟩ (by decide) stored

end Sample

end StellarAlerts.FirstSync
