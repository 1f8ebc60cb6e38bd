import StellarAlerts.WatcherAtomicity

/-!
The cursor never moves back. Where all paging tokens are words of digits, every atomic
change of the watcher leaves a wallet's cursor at a token of at least the value before,
so that no sequence of calls and catch-up passes lowers it.
-/
namespace StellarAlerts.Watcher
open Actions CursorRecovery Horizon IntegerText Histories

variable {p : Platform}

/-- The record's paging token, if it has one, is a word of digits. -/
def NumericRecord (record : HorizonOperationRecord p.Operation) : Prop :=
  ∀ token, getHorizonPagingToken record = some token → isDigits token = true

/-- Every persisted paging token is a word of digits. -/
def NumericTokens (s : World p) : Prop := ∀ walletId token, s.pagingToken walletId = some token → isDigits token = true

/-- Once there is a token, there is one of at least its value. -/
def NotBelow (before after : Option String) : Prop :=
  ∀ token, before = some token → ∃ later, after = some later ∧ decimal token ≤ decimal later

theorem notBelow_refl (token : Option String) : NotBelow token token := fun token is => ⟨token,is,Nat.le_refl _⟩

theorem notBelow_trans {a b c : Option String} (first : NotBelow a b) (second : NotBelow b c) : NotBelow a c := by
  intro token is
  obtain ⟨middle,isMiddle,le⟩ := first token is
  obtain ⟨later,isLater,le'⟩ := second middle isMiddle
  exact ⟨later,isLater,Nat.le_trans le le'⟩

/-- A step that lowers no wallet's cursor. -/
def Rising (s s' : World p) : Prop := ∀ walletId, NotBelow (s.pagingToken walletId) (s'.pagingToken walletId)

theorem rising_refl (s : World p) : Rising s s := fun _ => notBelow_refl _
theorem rising_trans {a b c : World p} (first : Rising a b) (second : Rising b c) : Rising a c :=
  fun walletId => notBelow_trans (first walletId) (second walletId)

/-- The atomic changes over numeric tokens. -/
abbrev NumericWrite : World p → World p → Prop :=
  Write (fun _ _ record => NumericRecord record) (fun token => isDigits token = true)

variable {trial : Trial p} {skipGapCheck : Bool} {s s' : World p} {result : TransactionResult p}

theorem token_ingested {wallet : Wallet} {record : HorizonOperationRecord p.Operation} {transfer : Transfer}
    {shouldSendAlert : Bool} (numeric : NumericTokens s) (digits : NumericRecord record)
    (ingested : Ingested wallet trial record transfer skipGapCheck shouldSendAlert s result s') :
    s'.pagingToken wallet.id = s.pagingToken wallet.id ∨
      ∃ token, getHorizonPagingToken record = some token ∧ s'.pagingToken wallet.id = some token ∧
        ∀ current, s.pagingToken wallet.id = some current → decimal current ≤ decimal token := by
  rcases ingested.cursor with same | ⟨token,found,moved,ahead⟩
  · exact .inl same
  · refine .inr ⟨token,found,moved,fun current is => ?_⟩
    rw [is] at ahead
    exact (isPagingTokenAtLeast_iff (digits token found) (numeric _ _ is)).mp ahead

theorem rising_write (numeric : NumericTokens s) (write : NumericWrite s s') : NumericTokens s' ∧ Rising s s' := by
  cases write with
  | @ingested wallet trial record _ _ _ _ _ _ digits prepared ingested =>
    have others := ingested.others
    rcases token_ingested numeric digits ingested with same | ⟨token,found,moved,above⟩
    · have all : ∀ walletId, s'.pagingToken walletId = s.pagingToken walletId := by
        intro walletId
        by_cases own : walletId = wallet.id
        · rw [own,same]
        · exact others walletId own
      refine ⟨fun walletId token is => numeric walletId token (all walletId ▸ is),fun walletId => ?_⟩
      rw [all walletId]
      exact notBelow_refl _
    · refine ⟨fun walletId other is => ?_,fun walletId => ?_⟩
      · by_cases own : walletId = wallet.id
        · rw [own,moved] at is
          injection is with same
          exact same ▸ digits token found
        · exact numeric walletId other (others walletId own ▸ is)
      · by_cases own : walletId = wallet.id
        · rw [own,moved]
          exact fun current is => ⟨token,rfl,above current is⟩
        · rw [others walletId own]
          exact notBelow_refl _
  | @seeded _ own token digits unseen =>
    refine ⟨fun walletId other is => ?_,fun walletId => ?_⟩
    · by_cases same : walletId = own
      · rw [same,setCursor_token] at is
        injection is with tokenIs
        exact tokenIs ▸ digits
      · exact numeric walletId other (setCursor_other s _ same ▸ is)
    · by_cases same : walletId = own
      · rw [same,unseen]
        exact fun token is => by cases is
      · rw [setCursor_other s _ same]
        exact notBelow_refl _
  | noted noted =>
    refine ⟨fun walletId token is => numeric walletId token (noted.tokens walletId ▸ is),fun walletId => ?_⟩
    rw [noted.tokens walletId]
    exact notBelow_refl _

theorem rising_writes (numeric : NumericTokens s) (writes : Relation.ReflTransGen NumericWrite s s') :
    NumericTokens s' ∧ Relation.ReflTransGen (fun a b => NumericWrite a b ∧ Rising a b) s s' := by
  induction writes with
  | refl => exact ⟨numeric,.refl⟩
  | tail _ last ih =>
    obtain ⟨before,chain⟩ := ih
    obtain ⟨after,rising⟩ := rising_write before last
    exact ⟨after,chain.tail ⟨last,rising⟩⟩

theorem rising_of_chain (chain : Relation.ReflTransGen (fun a b => NumericWrite a b ∧ Rising a b) s s') : Rising s s' := by
  induction chain with
  | refl => exact rising_refl s
  | tail _ last ih => exact rising_trans ih last.2

/-- A run of the watcher: records handed to the handler and catch-up passes. -/
inductive Call (p : Platform) where
  | record (delivery : Delivery p)
  | catchUp (wallet : Wallet) (pass : CatchUp p)

def step (s : World p) : Call p → Except String Unit × World p
  | .record delivery => deliver s delivery
  | .catchUp wallet pass => exec (processWalletPayments wallet pass) s

/-- All tokens that Horizon answers during the call are words of digits. -/
def Call.Numeric : Call p → Prop
  | .record delivery => delivery.handling.Admitted (fun _ _ record => NumericRecord record) delivery.wallet
  | .catchUp wallet pass =>
    pass.Admitted (fun _ _ record => NumericRecord record) (fun token => isDigits token = true) wallet

theorem writes_step {call : Call p} (digits : call.Numeric) : Relation.ReflTransGen NumericWrite s (step s call).2 := by
  cases call with
  | record delivery =>
    simp only [Call.Numeric] at digits
    exact (inWrites_processPaymentRecord digits s).1
  | catchUp wallet pass =>
    simp only [Call.Numeric] at digits
    exact (inWrites_processWalletPayments digits s).1

theorem numeric_run {start : World p} (numeric : NumericTokens start) {calls : List (Call p)}
    (digits : ∀ call ∈ calls, call.Numeric) :
    NumericTokens (run step start calls) ∧ Rising start (run step start calls) := by
  refine run_inv_of_mem (I := fun s => NumericTokens s ∧ Rising start s) ?_ ⟨numeric,rising_refl start⟩
  intro s call listed before
  obtain ⟨after,chain⟩ := rising_writes before.1 (writes_step (digits call listed))
  exact ⟨after,rising_trans before.2 (rising_of_chain chain)⟩

/-- The wallet's cursor has kept its value, and its text too unless the token is
    another spelling of the same number; the other cursors are as before. -/
def CursorStays (walletId token cursor : String) (s s' : World p) : Prop :=
  (∃ later, s'.pagingToken walletId = some later ∧ decimal later = decimal cursor ∧
    (token = cursor ∨ decimal token < decimal cursor → later = cursor)) ∧
  ∀ other, other ≠ walletId → s'.pagingToken other = s.pagingToken other

theorem cursorStays_noted {walletId token cursor : String} {s'' : World p} (stays : CursorStays walletId token cursor s s')
    (noted : Noted s' s'') : CursorStays walletId token cursor s s'' := by
  unfold CursorStays at stays ⊢
  simp only [noted.tokens]
  exact stays

theorem cursorStays_ingested {wallet : Wallet} {record : HorizonOperationRecord p.Operation} {transfer : Transfer}
    {shouldSendAlert : Bool} {token cursor : String} (numeric : NumericTokens s)
    (found : getHorizonPagingToken record = some token) (digits : isDigits token = true)
    (stands : s.pagingToken wallet.id = some cursor) (below : decimal token ≤ decimal cursor)
    (ingested : Ingested wallet trial record transfer skipGapCheck shouldSendAlert s result s') :
    CursorStays wallet.id token cursor s s' := by
  have own : NumericRecord record := by
    intro other is
    rw [found] at is
    injection is with same
    exact same ▸ digits
  refine ⟨?_,ingested.others⟩
  rcases token_ingested numeric own ingested with same | ⟨other,is,set,above⟩
  · exact ⟨cursor,same.trans stands,rfl,fun _ => rfl⟩
  · rw [found] at is
    injection is with tokenIs
    subst tokenIs
    have least := above cursor stands
    refine ⟨token,set,by omega,?_⟩
    rintro (same | strictly)
    · exact same
    · omega

theorem no_gap_below {wallet : Wallet} {record : HorizonOperationRecord p.Operation} {transfer : Transfer}
    {shouldSendAlert : Bool} {token cursor : String} (numeric : NumericTokens s)
    (found : getHorizonPagingToken record = some token) (digits : isDigits token = true)
    (stands : s.pagingToken wallet.id = some cursor) (below : decimal token ≤ decimal cursor)
    (ingested : Ingested wallet trial record transfer skipGapCheck shouldSendAlert s result s') :
    result.gap.hasGap = false := by
  rw [← Bool.not_eq_true]
  intro gap
  rw [ingested.gap,found] at gap
  simp only [cursorGap,stands] at gap
  cases skipGapCheck with
  | true => cases gap
  | false =>
    have ahead := token_lt_of_gap (numeric _ _ stands) digits (by decide) gap
    omega

theorem cursorStays_call (numeric : NumericTokens s) {wallet : Wallet} {handling : Handling p} {token cursor : String}
    (found : getHorizonPagingToken handling.record = some token) (digits : isDigits token = true)
    (stands : s.pagingToken wallet.id = some cursor) (below : decimal token ≤ decimal cursor) :
    CursorStays wallet.id token cursor s (exec (processPaymentRecord wallet skipGapCheck handling) s).2 := by
  have call : Ends (processPaymentRecord wallet skipGapCheck handling) s
      (fun _ s' => CursorStays wallet.id token cursor s s') := by
    have stays : CursorStays wallet.id token cursor s s := ⟨⟨cursor,stands,rfl,fun _ => rfl⟩,fun _ _ => rfl⟩
    apply ends_processPaymentRecordWith
    · exact fun _ => stays
    · exact fun _ _ => stays
    intro transfer decision result mid _ prepared ingested
    have moved := cursorStays_ingested numeric found digits stands below ingested
    apply ends_afterCommit
    · exact fun _ s' _ noted => cursorStays_noted moved noted
    · exact fun s' _ noted => cursorStays_noted moved noted
    · intro s' gap
      rw [no_gap_below numeric found digits stands below ingested] at gap
      cases gap
  exact call

/-- A platform for sample runs: integer amounts, dates kept as they are written,
    one known key, and neither stored rules nor contract events. -/
def plain : Platform where
  Num := Int
  Date := String
  Rule := Empty
  FilterRules := Empty
  Operation := Empty
  Number text := (BigInt text).getD 0
  newDate text := text
  toISOString date := date
  parseSacTransferEvent operation := nomatch operation
  matchesAlertRule rule := nomatch rule
  ruleId rule := nomatch rule
  shouldAlert rules := nomatch rules
  isValidEd25519PublicKey key := key == "GAAZI4TCR3TY5OJHCTJC2A4QSY6CJWJH5IAJTGKIN2ER7LBNVKOCCWN7"

/-- A call in which every service answers. -/
def calm (cuid : String) : Trial plain :=
  { fails := fun _ => none
    now := "2024-01-01T00:00:00.000Z"
    sacMetadata := none
    alertRules := []
    filterRules := none
    filterRulesAgain := none
    lockAnswers := fun _ => .OK
    cuid }

def nativePayment (pagingToken txHash amount to_ : String) : HorizonOperationRecord plain.Operation :=
  .payment ⟨pagingToken,"2024-01-01T00:00:00.000Z",txHash,none⟩ ⟨amount,"native",none,none,"GFUNDER",to_,none⟩
def sampleWallet : Wallet := ⟨"w1","GAAZI4TCR3TY5OJHCTJC2A4QSY6CJWJH5IAJTGKIN2ER7LBNVKOCCWN7",none⟩

/-- Over every run of calls and catch-up passes with numeric paging tokens, each of them goes through atomic changes that lower no
    wallet's cursor, so that no later cursor is below an earlier one; and in every world with numeric cursors, a record at or below its
    wallet's cursor leaves the cursor where it stands. -/
theorem cursor_monotone {start : World p} (numeric : NumericTokens start) {calls : List (Call p)}
    (digits : ∀ call ∈ calls, call.Numeric) :
    (∀ first call rest, calls = first ++ call :: rest →
      Relation.ReflTransGen (fun a b => NumericWrite a b ∧ Rising a b) (run step start first)
        (step (run step start first) call).2) ∧
    (∀ first rest, calls = first ++ rest → Rising (run step start first) (run step start calls)) ∧
    (∀ s : World p, NumericTokens s → ∀ (wallet : Wallet) (skipGapCheck : Bool) (handling : Handling p) token cursor,
      getHorizonPagingToken handling.record = some token → isDigits token = true →
      s.pagingToken wallet.id = some cursor → decimal token ≤ decimal cursor →
      CursorStays wallet.id token cursor s (exec (processPaymentRecord wallet skipGapCheck handling) s).2) := by
  refine ⟨?_,?_,?_⟩
  · rintro first call rest rfl
    have before := numeric_run numeric (fun other listed => digits other (List.mem_append_left _ listed))
    exact (rising_writes before.1 (writes_step (digits call (by simp)))).2
  · rintro first rest rfl
    have before := numeric_run numeric (fun other listed => digits other (List.mem_append_left _ listed))
    rw [run_append]
    exact (numeric_run before.1 (fun other listed => digits other (List.mem_append_right _ listed))).2
  · intro s numeric' wallet skipGapCheck handling token cursor found word stands below
    exact cursorStays_call numeric' found word stands below

def outOfOrder : List (Call plain) :=
  [.record ⟨sampleWallet,false,nativePayment "1000" "aa" "5" sampleWallet.publicKey,calm "p1",[]⟩,
    .record ⟨sampleWallet,false,nativePayment "99" "bb" "7" sampleWallet.publicKey,calm "p2",[]⟩]

theorem numeric_outOfOrder : ∀ call ∈ outOfOrder, call.Numeric := by
  simp only [outOfOrder,List.mem_cons,List.not_mem_nil,or_false,forall_eq_or_imp,forall_eq,Call.Numeric,
    Handling.Admitted,NumericRecord,false_implies,implies_true,and_true,token_eq_some]
  constructor
  · rintro token ⟨rfl,_⟩
    decide
  · rintro token ⟨rfl,_⟩
    decide

/-- The later record with the lower token is taken in and leaves the cursor. -/
theorem out_of_order_monotone :
    Rising (run step World.empty (outOfOrder.take 1)) (run step World.empty outOfOrder) ∧
      (run step World.empty outOfOrder).pagingToken "w1" = some "1000" ∧
      (run step World.empty outOfOrder).payment.rows.length = 2 :=
  ⟨(cursor_monotone (fun _ _ is => by cases is) numeric_outOfOrder).2.1 _ (outOfOrder.drop 1) rfl,by decide,by decide⟩

end StellarAlerts.Watcher
