import StellarAlerts.PaymentStream

/-!
What a task of the stream does to the persisted cursor. A call that throws before its
commit leaves the tables; one that goes through leaves the cursor at a token of at least
the value before, either the old one or that of a record it has taken in (`Moves`).
-/
namespace StellarAlerts.PaymentStream
open Actions CursorRecovery Horizon Watcher WalletLocks

variable {p : Platform}

/-- The cursor stands at the record's token or beyond it. -/
def reached (cursor : Option String) (record : HorizonOperationRecord p.Operation) : Bool :=
  match cursor, getHorizonPagingToken record with
  | some current, some token => isPagingTokenAtLeast current token
  | _, _ => false

theorem reached_of_atLeast {later earlier : String} (ahead : isPagingTokenAtLeast later earlier = true)
    {record : HorizonOperationRecord p.Operation} (passed : reached (some earlier) record = true) :
    reached (some later) record = true := by
  unfold reached at passed ⊢
  cases found : getHorizonPagingToken record with
  | none => simp [found] at passed
  | some token =>
    simp only [found] at passed ⊢
    exact isPagingTokenAtLeast_trans ahead passed

def Moves (walletId : String) (records : List (HorizonOperationRecord p.Operation)) (s s' : World p) : Prop :=
  s'.pagingToken walletId = s.pagingToken walletId ∨
    ∃ record ∈ records, ∃ token, getHorizonPagingToken record = some token ∧ s'.pagingToken walletId = some token ∧
      ∀ current, s.pagingToken walletId = some current → isPagingTokenAtLeast token current = true

variable {records : List (HorizonOperationRecord p.Operation)} {s s' : World p}

theorem moves_noted {walletId : String} {s'' : World p} (moves : Moves walletId records s s') (noted : Noted s' s'') :
    Moves walletId records s s'' := by
  unfold Moves
  rw [noted.tokens]
  exact moves

theorem moves_mono {walletId : String} {some_ all : List (HorizonOperationRecord p.Operation)}
    (moves : Moves walletId some_ s s') (within : ∀ record ∈ some_, record ∈ all) : Moves walletId all s s' := by
  refine moves.imp_right ?_
  rintro ⟨record,member,facts⟩
  exact ⟨record,within record member,facts⟩

theorem moves_trans {walletId : String} {a b c : World p} (first : Moves walletId records a b)
    (second : Moves walletId records b c) : Moves walletId records a c := by
  rcases second with same | ⟨record,member,token,found,moved,above⟩
  · unfold Moves
    rw [same]
    exact first
  · refine Or.inr ⟨record,member,token,found,moved,fun current stands => ?_⟩
    rcases first with same | ⟨_,_,middle,_,between,beyond⟩
    · exact above current (same.trans stands)
    · exact isPagingTokenAtLeast_trans (above middle between) (beyond current stands)

theorem moves_some {walletId : String} (moves : Moves walletId records s s') {current : String}
    (stands : s.pagingToken walletId = some current) : ∃ later, s'.pagingToken walletId = some later := by
  rcases moves with same | ⟨_,_,token,_,moved,_⟩
  · exact ⟨current,same.trans stands⟩
  · exact ⟨token,moved⟩

variable {result : TransactionResult p}

theorem moves_ingested {wallet : Wallet} {trial : Trial p} {record : HorizonOperationRecord p.Operation} {transfer : Transfer}
    {skipGapCheck shouldSendAlert : Bool}
    (ingested : Ingested wallet trial record transfer skipGapCheck shouldSendAlert s result s') :
    Moves wallet.id [record] s s' := by
  rcases ingested.cursor with same | ⟨token,found,moved,ahead⟩
  · exact .inl same
  · refine .inr ⟨record,List.mem_singleton.mpr rfl,token,found,moved,fun current stands => ?_⟩
    rw [stands] at ahead
    exact ahead

theorem id_ingested {wallet : Wallet} {trial : Trial p} {record : HorizonOperationRecord p.Operation} {transfer : Transfer}
    {skipGapCheck shouldSendAlert : Bool}
    (ingested : Ingested wallet trial record transfer skipGapCheck shouldSendAlert s result s') :
    ∀ row ∈ s'.payment.rows, row ∈ s.payment.rows ∨ row.id = trial.cuid := by
  intro row member
  rcases ingested.rows with ⟨_,_,_,rows,_⟩ | ⟨_,payment,_⟩
  · rw [rows,List.mem_append,List.mem_singleton] at member
    exact member.imp_right fun same => by rw [same]; rfl
  · rw [payment] at member
    exact Or.inl member

theorem ends_updateCursor_some {walletId current : String} {update : IngestionCursorHealthUpdate p.Date}
    (stands : s.pagingToken walletId = some current) :
    Ends (updateCursor walletId update) s (fun outcome s' => outcome = .ok () ∧ Noted s s') := by
  refine ⟨?_,ends_updateCursor⟩
  obtain ⟨cursor,found,_⟩ := Option.map_eq_some_iff.mp stands
  have goes : Ends (updateCursor walletId update) s (fun outcome _ => outcome = .ok ()) := by
    simp only [updateCursor,ends_bind,ends_get,found]
    rfl
  exact goes

/-- None of the identifiers that these calls have to give is in use. -/
structure Unused (world : World p) (records : List (HorizonOperationRecord p.Operation × Trial p)) : Prop where
  apart : (records.map (·.2.cuid)).Nodup
  free : ∀ handled ∈ records, ∀ row ∈ world.payment.rows, row.id ≠ handled.2.cuid

theorem unused_tail {handled : HorizonOperationRecord p.Operation × Trial p}
    {rest : List (HorizonOperationRecord p.Operation × Trial p)} (unused : Unused s (handled :: rest))
    (rows : ∀ row ∈ s'.payment.rows, row ∈ s.payment.rows ∨ row.id = handled.2.cuid) : Unused s' rest := by
  have split := List.nodup_cons.mp unused.apart
  refine ⟨split.2,fun other listed row stored => ?_⟩
  rcases rows row stored with old | new
  · exact unused.free other (List.mem_cons_of_mem _ listed) row old
  · intro same
    exact split.1 (List.mem_map.mpr ⟨other,listed,same.symm.trans new⟩)

theorem ends_window {wallet : Wallet} {records : List (HorizonOperationRecord p.Operation × Trial p)}
    (calm : ∀ handled ∈ records, handled.2.Calm) (unused : Unused s records) :
    Ends (forEach (fun handled => processPaymentRecordWith (pure ()) wallet handled.1 true handled.2) records) s
      (fun outcome s' => outcome = .ok () ∧ Moves wallet.id (records.map (·.1)) s s') := by
  induction records generalizing s with
  | nil => exact ⟨rfl,Or.inl rfl⟩
  | cons handled rest ih =>
    have next : ∀ s', (∀ row ∈ s'.payment.rows, row ∈ s.payment.rows ∨ row.id = handled.2.cuid) →
        Moves wallet.id [handled.1] s s' →
        Ends (forEach (fun handled => processPaymentRecordWith (pure ()) wallet handled.1 true handled.2) rest) s'
          (fun outcome s'' => outcome = .ok () ∧ Moves wallet.id ((handled :: rest).map (·.1)) s s'') := by
      intro s' rows moves
      refine ends_mono (ih (fun other listed => calm other (List.mem_cons_of_mem _ listed)) (unused_tail unused rows)) ?_
      rintro outcome s'' ⟨ok,later⟩
      exact ⟨ok,moves_trans (moves_mono moves (by simp)) (moves_mono later fun record member => by simp_all)⟩
    have answers := calm handled (List.mem_cons_self ..)
    refine ends_bind.mpr (ends_processPaymentRecordWith ?_ ?_ ?_)
    · exact fun _ => next s (fun row stored => Or.inl stored) (Or.inl rfl)
    · rintro error (⟨stage,_,fails⟩ | unlocked | ⟨row,stored,same⟩)
      · rw [answers.answers] at fails
        cases fails
      · rw [answers.lock] at unlocked
        cases unlocked
      · exact absurd same (unused.free handled (List.mem_cons_self ..) row stored)
    · intro transfer decision result s₁ _ _ ingested
      have moves : ∀ s', Noted s₁ s' → _ := fun s' noted =>
        next s' (fun row stored => id_ingested ingested row (by rwa [← noted.payment])) (moves_noted (moves_ingested ingested) noted)
      apply ends_afterCommit
      · rintro error s' ⟨stage,_,fails⟩
        rw [answers.answers] at fails
        cases fails
      · exact fun s' _ noted => moves s' noted
      · exact fun s' _ noted => moves s' noted

theorem unused_reverse {records : List (HorizonOperationRecord p.Operation × Trial p)} (unused : Unused s records) :
    Unused s records.reverse := by
  refine ⟨?_,fun handled listed => unused.free handled (List.mem_reverse.mp listed)⟩
  rw [List.map_reverse,List.nodup_reverse]
  exact unused.apart

theorem cursor_of_gap {c : Processing p} (gap : gapAhead c false s = true) :
    ∃ current, s.pagingToken c.wallet.id = some current := by
  unfold gapAhead at gap
  cases stands : s.pagingToken c.wallet.id with
  | some current => exact ⟨current,rfl⟩
  | none =>
    cases found : getHorizonPagingToken c.record with
    | none => simp [found] at gap
    | some token => simp [found,stands,cursorGap,no_gap_of_none,noGap] at gap

variable {handling : Handling p}

/-- The records that a call takes in: its own, and the window if it recovers. -/
theorem mem_takenIn {wallet : Wallet} {record : HorizonOperationRecord p.Operation} :
    record ∈ takenIn wallet handling s ↔ record = handling.record ∨
      gapAhead ⟨wallet,handling.record,handling.trial⟩ false s = true ∧ record ∈ handling.window.map (·.1) := by
  simp only [takenIn,handledBy,Delivery.own,Delivery.again,List.map_cons,List.mem_cons]
  by_cases gap : gapAhead ⟨wallet,handling.record,handling.trial⟩ false s = true
  · simp [gap]
  · simp [gap]

/-- A task of the stream. Where no stage after the commit fails, and no call of a recovery, it throws with the tables unchanged or moves
    the cursor to a record that it has taken in. -/
theorem ends_task {wallet : Wallet} (late : ∀ stage : Stage, stage.afterCommit = true → handling.trial.fails stage = none)
    (recovers : gapAhead ⟨wallet,handling.record,handling.trial⟩ false s = true →
      (∀ handled ∈ handling.window, handled.2.Calm) ∧ Unused s ((handling.record,handling.trial) :: handling.window)) :
    Ends (processPaymentRecord wallet false handling) s (fun outcome s' =>
      match outcome with
      | .error _ => s' = s
      | .ok _ => Moves wallet.id (takenIn wallet handling s) s s') := by
  apply ends_processPaymentRecordWith
  · exact fun _ => Or.inl rfl
  · exact fun _ _ => rfl
  intro transfer decision result s₁ _ prepared ingested
  have gapIs := gap_ingested (c := ⟨wallet,handling.record,handling.trial⟩) prepared ingested
  have own : Moves wallet.id (takenIn wallet handling s) s s₁ := by
    refine moves_mono (moves_ingested ingested) fun record member => ?_
    exact mem_takenIn.mpr (Or.inl (List.mem_singleton.mp member))
  apply ends_afterCommit
  · rintro error s' ⟨stage,after,fails⟩
    rw [late stage after] at fails
    cases fails
  · exact fun s' _ noted => moves_noted own noted
  · intro s' found noted
    rw [gapIs] at found
    obtain ⟨calm,unused⟩ := recovers found
    have free : Unused s' handling.window.reverse :=
      unused_reverse (unused_tail unused fun row stored => id_ingested ingested row (by rwa [← noted.payment]))
    refine ends_bind.mpr (ends_mono (ends_window (fun handled listed => calm handled (List.mem_reverse.mp listed)) free) ?_)
    rintro outcome s₂ ⟨rfl,window⟩
    have moves : Moves wallet.id (takenIn wallet handling s) s s₂ := by
      refine moves_trans (moves_noted own noted) (moves_mono window fun record member => ?_)
      rw [List.map_reverse,List.mem_reverse] at member
      exact mem_takenIn.mpr (Or.inr ⟨found,member⟩)
    obtain ⟨current,stands⟩ := cursor_of_gap found
    obtain ⟨later,stands'⟩ := moves_some moves stands
    simp only [ends_bind,ends_reach,late .clearGap rfl]
    refine ends_mono (ends_updateCursor_some stands') ?_
    rintro outcome s₃ ⟨rfl,after⟩
    exact moves_noted moves after

end StellarAlerts.PaymentStream
