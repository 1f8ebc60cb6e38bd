import StellarAlerts.ResilientStream

/-!
What a run of the payment stream has done. Whatever fails, the calls of the handler go
through the payments in order, each one that returned is counted, and the cursor and the
checkpoint are of payments whose calls returned (`stream_in_order`).
-/
namespace StellarAlerts.StreamResumption
open Histories RecentWindows ResilientStream

variable {options : Options} {loaded : Option Checkpoint} {feed : Feed options (loadedBy options loaded)}

def cursorAfter (first : Option String) (handled : List PaymentDTO) : Option String :=
  (handled.getLast?.map fun payment => some payment.cursor).getD first

theorem after_cursorAfter {handled : List PaymentDTO} (inOrder : handled <+: feed.payments) :
    feed.after (cursorAfter (startCursor options (loadedBy options loaded)) handled) = some handled.length := by
  rcases List.eq_nil_or_concat' handled with rfl | ⟨earlier,last,rfl⟩
  · simp [Feed.after,cursorAfter]
  · obtain ⟨later,parts⟩ := inOrder
    have member : last ∈ feed.payments := by rw [← parts]; simp
    have other : some last.cursor ≠ startCursor options (loadedBy options loaded) := (feed.initial last member).symm
    have cursors := feed.cursors
    rw [← parts,List.append_assoc,List.map_append,List.nodup_append] at cursors
    have fresh : ∀ payment ∈ earlier, payment.cursor ≠ last.cursor := by
      intro payment listed
      exact cursors.2.2 _ (List.mem_map_of_mem listed) _ (by simp)
    have none : earlier.findIdx? (fun payment => decide (some payment.cursor = some last.cursor)) = none := by
      rw [List.findIdx?_eq_none_iff]
      intro payment listed
      simpa using fresh payment listed
    have found : feed.payments.findIdx? (fun payment => decide (some payment.cursor = some last.cursor)) =
        some earlier.length := by
      rw [← parts,List.append_assoc,List.findIdx?_append,none]
      simp [List.findIdx?_cons]
    have cursor_is : cursorAfter (startCursor options (loadedBy options loaded)) (earlier ++ [last]) = some last.cursor := by
      simp [cursorAfter]
    rw [cursor_is,Feed.after,if_neg other,found,List.length_append]
    rfl

/-- The calls are those of the first payments, all but perhaps the last returned, and the variables tell how far they are. -/
structure InOrder (feed : Feed options (loadedBy options loaded)) (s : System options) : Prop where
  called : s.called <+: feed.payments
  calls : s.called = s.handled ∨
    ∃ payment, s.called = s.handled ++ [payment] ∧
      (s.machine.phase = .handling payment ∨ ∃ error, s.machine.phase = .threw error)
  handling : ∀ payment, s.machine.phase = .handling payment → s.called = s.handled ++ [payment]
  noRepeats : ∀ payment, s.machine.phase = .handling payment → ∀ line, s.line = some line → line.repeats = []
  received : s.machine.received = s.handled.length
  seen : s.machine.seen.items =
    lastOnes options.dedupWindow (startSeen options (loadedBy options loaded) ++ s.handled.map PaymentDTO.id)
  cursor : s.machine.cursor = cursorAfter (startCursor options (loadedBy options loaded)) s.handled
  line : ∀ line, s.line = some line → line.place = s.called.length ∧
    ∀ payment ∈ line.repeats, payment ∈ lastOnes options.dedupWindow s.handled
  stored : s.stored = loaded ∨ ∃ payment ∈ s.handled, s.stored = some payment.checkpoint
  saving : ∀ payment, s.machine.phase = .saving payment → payment ∈ s.handled
  result : ∀ result, s.machine.phase = .returned result →
    result.received = s.handled.length ∧ result.cursor = s.machine.cursor

/-- The variables that tell how far the payments are handled stay, and no call or save begins. -/
structure Turns (m m' : Machine options) : Prop where
  cursor : m'.cursor = m.cursor
  seen : m'.seen = m.seen
  received : m'.received = m.received
  noCall : ∀ payment, m'.phase ≠ .handling payment
  noSave : ∀ payment, m'.phase ≠ .saving payment
  result : ∀ result, m'.phase = .returned result → result.received = m.received ∧ result.cursor = m.cursor

theorem turns_finish (m : Machine options) : Turns m m.finish := by
  refine ⟨rfl,rfl,rfl,nofun,nofun,?_⟩
  intro result returned
  injection returned with result_is
  subst result_is
  exact ⟨rfl,rfl⟩

variable {m : Machine options}

theorem turns_phase {m' : Machine options} (cursor : m'.cursor = m.cursor) (seen : m'.seen = m.seen)
    (received : m'.received = m.received)
    (phase : m'.phase = .connecting ∨ m'.phase = .reading ∨ m'.phase = .sleeping ∨ ∃ error, m'.phase = .threw error) :
    Turns m m' := by
  refine ⟨cursor,seen,received,?_,?_,?_⟩
  all_goals
    intro value same
    rw [same] at phase
    simp at phase

theorem turns_unless {m' : Machine options} (goes : Turns m m') : Turns m (if m.aborted then m.finish else m') := by
  by_cases aborted : m.aborted = true
  · rw [if_pos aborted]
    exact turns_finish m
  · rw [if_neg aborted]
    exact goes

theorem turns_top (m : Machine options) : Turns m m.top := turns_unless (turns_phase rfl rfl rfl (.inl rfl))
theorem turns_next (m : Machine options) : Turns m m.next := turns_unless (turns_phase rfl rfl rfl (.inr (.inl rfl)))

theorem turns_retry (m : Machine options) (failure : StreamError) : Turns m (m.retry failure) := by
  unfold Machine.retry
  cases options.maxRetries with
  | none => exact turns_phase rfl rfl rfl (.inr (.inr (.inl rfl)))
  | some maxRetries =>
    by_cases many : maxRetries < m.attempt + 1
    · simp only [if_pos many]
      exact turns_phase rfl rfl rfl (.inr (.inr (.inr ⟨_,rfl⟩)))
    · simp only [if_neg many]
      exact turns_phase rfl rfl rfl (.inr (.inr (.inl rfl)))

theorem turns_closed (m : Machine options) : Turns m m.closed := turns_unless (turns_retry m _)

theorem turns_caught (m : Machine options) (error : StreamError) : Turns m (m.caught error) := by
  refine turns_unless ?_
  by_cases retryable : isRetryableStreamError error = true
  · rw [if_pos retryable]
    exact turns_retry m error
  · rw [if_neg retryable]
    exact turns_phase rfl rfl rfl (.inr (.inr (.inr ⟨error,rfl⟩)))

variable {s : System options}

theorem inOrder_turn (inv : InOrder feed s) (turns : Turns s.machine m) (idle : s.called = s.handled)
    {checkpoint : Option Checkpoint}
    (stored : checkpoint = s.stored ∨ ∃ payment ∈ s.handled, checkpoint = some payment.checkpoint) :
    InOrder feed { s with machine := m, stored := checkpoint } where
  called := inv.called
  calls := .inl idle
  handling payment phase := absurd phase (turns.noCall payment)
  noRepeats payment phase := absurd phase (turns.noCall payment)
  received := turns.received.trans inv.received
  seen := by rw [turns.seen]; exact inv.seen
  cursor := turns.cursor.trans inv.cursor
  line := inv.line
  stored := by
    rcases stored with same | written
    · rw [same]
      exact inv.stored
    · exact .inr written
  saving payment phase := absurd phase (turns.noSave payment)
  result result phase := by
    obtain ⟨received,cursor⟩ := turns.result result phase
    exact ⟨received.trans inv.received,cursor.trans turns.cursor.symm⟩

theorem idle_of_phase (inv : InOrder feed s) {phase : Phase} (is : s.machine.phase = phase)
    (noCall : ∀ payment, phase ≠ .handling payment) (noError : ∀ error, phase ≠ .threw error) : s.called = s.handled := by
  subst is
  rcases inv.calls with idle | ⟨payment,-,handling | ⟨error,threw⟩⟩
  · exact idle
  · exact absurd handling (noCall payment)
  · exact absurd threw (noError error)

theorem inOrder_tell (inv : InOrder feed s) {occurrence : Occurrence} (is : s.machine.advance occurrence = m)
    (turns : Turns s.machine m) (idle : s.called = s.handled) : InOrder feed (s.tell occurrence) :=
  inOrder_turn inv (is ▸ turns) idle (.inl rfl)

theorem inOrder_abort (inv : InOrder feed s) : InOrder feed (s.tell .abort) := by
  have same : (s.machine.advance .abort).phase = s.machine.phase ∧ (s.machine.advance .abort).cursor = s.machine.cursor ∧
      (s.machine.advance .abort).seen = s.machine.seen ∧ (s.machine.advance .abort).received = s.machine.received := by
    cases phase : s.machine.phase <;> simp [Machine.advance,phase]
  obtain ⟨phase,cursor,seen,received⟩ := same
  exact {
    called := inv.called
    calls := by
      show _ ∨ ∃ payment, _ ∧ ((s.machine.advance .abort).phase = _ ∨ ∃ error, (s.machine.advance .abort).phase = _)
      rw [phase]
      exact inv.calls
    handling := fun payment handling => inv.handling payment (phase ▸ handling)
    noRepeats := fun payment handling => inv.noRepeats payment (phase ▸ handling)
    received := received.trans inv.received
    seen := (congrArg Recent.items seen).trans inv.seen
    cursor := cursor.trans inv.cursor
    line := inv.line
    stored := inv.stored
    saving := fun payment saving => inv.saving payment (phase ▸ saving)
    result := by
      intro result returned
      obtain ⟨received,cursors⟩ := inv.result result (phase ▸ returned)
      exact ⟨received,cursors.trans cursor.symm⟩ }

variable {line : Line}

theorem repeated_seen (inv : InOrder feed s) (isLine : s.line = some line) {payment : PaymentDTO}
    (listed : payment ∈ line.repeats) : s.machine.seen.has payment.id = true := by
  have recent := (inv.line line isLine).2 payment listed
  have id_recent : payment.id ∈ lastOnes options.dedupWindow (s.handled.map PaymentDTO.id) := by
    rw [← map_lastOnes]
    exact List.mem_map_of_mem recent
  rw [Recent.has,decide_eq_true_iff,inv.seen]
  exact mem_lastOnes_append _ id_recent

theorem next_unseen (inv : InOrder feed s) {payment : PaymentDTO} (next : feed.payments[s.handled.length]? = some payment)
    (inOrder : s.handled <+: feed.payments) : payment.id ∉ s.machine.seen.items := by
  intro listed
  rw [inv.seen] at listed
  rcases List.mem_append.mp (mem_of_lastOnes listed) with first | earlier
  · exact feed.unseen payment (List.mem_of_getElem? next) first
  · obtain ⟨later,parts⟩ := inOrder
    have ids := feed.ids
    rw [← parts,List.map_append,List.nodup_append] at ids
    rw [← parts,List.getElem?_append_right (le_refl _),Nat.sub_self] at next
    exact ids.2.2 _ earlier _ (List.mem_map_of_mem (List.mem_of_getElem? next)) rfl

theorem prefix_next {payment : PaymentDTO} (inOrder : s.handled <+: feed.payments)
    (next : feed.payments[s.handled.length]? = some payment) : s.handled ++ [payment] <+: feed.payments := by
  obtain ⟨later,parts⟩ := inOrder
  rw [← parts,List.getElem?_append_right (le_refl _),Nat.sub_self] at next
  cases later with
  | nil => cases next
  | cons first later =>
    injection next with first_is
    subst first_is
    exact ⟨later,by rw [List.append_assoc]; exact parts⟩

theorem inOrder_repeated (inv : InOrder feed s) (reading : s.machine.phase = .reading) (isLine : s.line = some line)
    {payment : PaymentDTO} (listed : payment ∈ line.repeats) : InOrder feed (s.receives payment line) := by
  have idle := idle_of_phase inv reading (by simp) (by simp)
  have dropped : s.machine.advance (.payment payment) =
      { s.machine with attempt := 0, suppressed := s.machine.suppressed + 1 }.next := by
    simp [Machine.advance,reading,Machine.payment,repeated_seen inv isLine listed]
  have turns : Turns s.machine (s.machine.advance (.payment payment)) := by
    have turns := turns_next { s.machine with attempt := 0, suppressed := s.machine.suppressed + 1 }
    rw [dropped]
    exact ⟨turns.cursor,turns.seen,turns.received,turns.noCall,turns.noSave,turns.result⟩
  have system_is : s.receives payment line = { s with machine := s.machine.advance (.payment payment) } := by
    have noCall := turns.noCall payment
    simp [System.receives,noCall,isLine]
  rw [system_is]
  exact inOrder_turn inv turns idle (.inl rfl)

theorem inOrder_next (inv : InOrder feed s) (reading : s.machine.phase = .reading) (isLine : s.line = some line)
    {payment : PaymentDTO} (next : feed.payments[line.place]? = some payment) :
    InOrder feed (s.receives payment ⟨[],line.place + 1⟩) := by
  have idle := idle_of_phase inv reading (by simp) (by simp)
  have inOrder : s.handled <+: feed.payments := idle ▸ inv.called
  have place : line.place = s.handled.length := by rw [(inv.line line isLine).1,idle]
  rw [place] at next ⊢
  have unseen : s.machine.seen.has payment.id = false := by
    rw [Recent.has,decide_eq_false_iff_not]
    exact next_unseen inv next inOrder
  have machine_is : s.machine.advance (.payment payment) = { s.machine with attempt := 0, phase := .handling payment } := by
    simp [Machine.advance,reading,Machine.payment,unseen]
  have system_is : s.receives payment ⟨[],s.handled.length + 1⟩ =
      { s with machine := { s.machine with attempt := 0, phase := .handling payment }
               called := s.handled ++ [payment], line := some ⟨[],s.handled.length + 1⟩ } := by
    simp [System.receives,machine_is,idle]
  rw [system_is]
  exact {
    called := prefix_next inOrder next
    calls := .inr ⟨payment,rfl,.inl rfl⟩
    handling := by
      intro other handling
      injection handling with same
      rw [same]
    noRepeats := by
      intro other handling found same
      injection same with same
      rw [← same]
    received := inv.received
    seen := inv.seen
    cursor := inv.cursor
    line := by
      intro found same
      injection same with same
      subst same
      exact ⟨by simp,nofun⟩
    stored := inv.stored
    saving := nofun
    result := nofun }

theorem inOrder_handled (inv : InOrder feed s) {payment : PaymentDTO} (handling : s.machine.phase = .handling payment) :
    InOrder feed { s.tell .handled with handled := s.handled ++ [payment] } := by
  have called := inv.handling payment handling
  have inOrder : s.handled ++ [payment] <+: feed.payments := called ▸ inv.called
  have next : feed.payments[s.handled.length]? = some payment := by
    obtain ⟨later,parts⟩ := inOrder
    rw [← parts,List.append_assoc,List.getElem?_append_right (le_refl _),Nat.sub_self]
    rfl
  have unseen := next_unseen inv next ((List.prefix_append _ _).trans inOrder)
  have machine_is : s.machine.advance .handled = s.machine.handled payment := by simp [Machine.advance,handling]
  let moved : Machine options :=
    { s.machine with
      seen := s.machine.seen.add payment.id, received := s.machine.received + 1, cursor := some payment.cursor }
  -- the variables are those of `moved`; behind them the payment is saved or the loop goes on
  have fields : (s.machine.advance .handled).cursor = some payment.cursor ∧
      (s.machine.advance .handled).seen = s.machine.seen.add payment.id ∧
      (s.machine.advance .handled).received = s.machine.received + 1 ∧
      (∀ other, (s.machine.advance .handled).phase ≠ .handling other) ∧
      (∀ other, (s.machine.advance .handled).phase = .saving other → other = payment) ∧
      (∀ result, (s.machine.advance .handled).phase = .returned result →
        result.received = s.machine.received + 1 ∧ result.cursor = some payment.cursor) := by
    rw [machine_is]
    unfold Machine.handled
    by_cases stores : options.store = true
    · rw [if_pos stores]
      refine ⟨rfl,rfl,rfl,nofun,?_,nofun⟩
      intro other saving
      injection saving with same
      exact same.symm
    · rw [if_neg stores]
      have turns := turns_next moved
      exact ⟨turns.cursor,turns.seen,turns.received,turns.noCall,fun other saving => absurd saving (turns.noSave other),
        turns.result⟩
  obtain ⟨cursor,seen,received,noCall,saving,result⟩ := fields
  exact {
    called := inv.called
    calls := .inl called
    handling := fun other phase => absurd phase (noCall other)
    noRepeats := fun other phase => absurd phase (noCall other)
    received := by
      show (s.machine.advance .handled).received = _
      rw [received,inv.received,List.length_append,List.length_singleton]
    seen := by
      show (s.machine.advance .handled).seen.items = _
      rw [seen,add_items inv.seen unseen,List.map_append,List.append_assoc]
      rfl
    cursor := by
      show (s.machine.advance .handled).cursor = _
      rw [cursor]
      simp [cursorAfter]
    line := by
      intro line isLine
      refine ⟨(inv.line line isLine).1,?_⟩
      rw [inv.noRepeats payment handling line isLine]
      exact nofun
    stored := by
      rcases inv.stored with same | ⟨other,listed,written⟩
      · exact .inl same
      · exact .inr ⟨other,List.mem_append_left _ listed,written⟩
    saving := by
      intro other phase
      rw [saving other phase]
      exact List.mem_append_right _ (List.mem_singleton_self _)
    result := by
      intro found phase
      obtain ⟨receivedIs,cursorIs⟩ := result found phase
      refine ⟨?_,cursorIs.trans cursor.symm⟩
      rw [receivedIs,inv.received,List.length_append,List.length_singleton] }

theorem inOrder_failed (inv : InOrder feed s) {payment : PaymentDTO} (handling : s.machine.phase = .handling payment)
    (error : StreamError) : InOrder feed (s.tell (.handlerFailed (some error))) := by
  have machine_is : s.machine.advance (.handlerFailed (some error)) = { s.machine with phase := .threw error } := by
    simp [Machine.advance,handling]
  have system_is : s.tell (.handlerFailed (some error)) = { s with machine := { s.machine with phase := .threw error } } := by
    rw [System.tell,machine_is]
  rw [system_is]
  exact { inv with
    calls := .inr ⟨payment,inv.handling payment handling,.inr ⟨error,rfl⟩⟩
    handling := nofun
    noRepeats := nofun
    saving := nofun
    result := nofun }

theorem inOrder_connected (inv : InOrder feed s) (connecting : s.machine.phase = .connecting) :
    InOrder feed (s.connect feed) := by
  have idle := idle_of_phase inv connecting (by simp) (by simp)
  have machine_is : s.machine.advance .connected = { s.machine with phase := .reading } := by
    simp [Machine.advance,connecting]
  have turns : Turns s.machine (s.machine.advance .connected) := by
    rw [machine_is]
    exact turns_phase rfl rfl rfl (.inr (.inl rfl))
  have told := inOrder_tell inv rfl turns idle
  have after_is : feed.after s.machine.cursor = some s.handled.length := by
    rw [inv.cursor]
    exact after_cursorAfter (idle ▸ inv.called)
  exact { told with
    noRepeats := fun payment phase => absurd phase (turns.noCall payment)
    line := by
      intro line same
      rw [System.connect,after_is,Option.map_some,Option.some.injEq] at same
      subst same
      exact ⟨congrArg List.length idle.symm,fun _ => id⟩ }

theorem inOrder_step (s : System options) (choice : Choice) (inv : InOrder feed s) : InOrder feed (step feed s choice).2 := by
  cases choice with
  | abort =>
    have told : (step feed s .abort).2 = s.tell .abort := rfl
    rw [told]
    exact inOrder_abort inv
  | connected =>
    cases phase : s.machine.phase with
    | connecting =>
      simp only [step,System.happens,phase]
      exact inOrder_connected inv phase
    | _ => simpa only [step,System.happens,phase] using inv
  | connectFailed error =>
    cases phase : s.machine.phase with
    | connecting =>
      simp only [step,System.happens,phase]
      exact inOrder_tell inv (by simp [Machine.advance,phase]) (turns_caught s.machine error) (idle_of_phase inv phase (by simp) (by simp))
    | _ => simpa only [step,System.happens,phase] using inv
  | repeated index =>
    cases phase : s.machine.phase with
    | reading =>
      simp only [step,System.happens,phase,System.repeats]
      cases isLine : s.line with
      | none => exact inv
      | some line =>
        cases repeats : line.repeats[index]? with
        | none => simpa only [repeats] using inv
        | some payment =>
          simp only [repeats]
          exact inOrder_repeated inv phase isLine (List.mem_of_getElem? repeats)
    | _ => simpa only [step,System.happens,phase] using inv
  | next =>
    cases phase : s.machine.phase with
    | reading =>
      simp only [step,System.happens,phase,System.sends]
      cases isLine : s.line with
      | none => exact inv
      | some line =>
        cases next : feed.payments[line.place]? with
        | none => simpa only [next] using inv
        | some payment =>
          simp only [next]
          exact inOrder_next inv phase isLine next
    | _ => simpa only [step,System.happens,phase] using inv
  | ended =>
    cases phase : s.machine.phase with
    | reading =>
      simp only [step,System.happens,phase]
      exact inOrder_tell inv (by simp [Machine.advance,phase]) (turns_closed s.machine) (idle_of_phase inv phase (by simp) (by simp))
    | _ => simpa only [step,System.happens,phase] using inv
  | failed error =>
    cases phase : s.machine.phase with
    | reading =>
      simp only [step,System.happens,phase]
      exact inOrder_tell inv (by simp [Machine.advance,phase]) (turns_caught s.machine error) (idle_of_phase inv phase (by simp) (by simp))
    | _ => simpa only [step,System.happens,phase] using inv
  | handled =>
    cases phase : s.machine.phase with
    | handling payment =>
      simp only [step,System.happens,phase]
      exact inOrder_handled inv phase
    | _ => simpa only [step,System.happens,phase] using inv
  | handlerFailed error =>
    cases phase : s.machine.phase with
    | handling payment =>
      simp only [step,System.happens,phase]
      exact inOrder_failed inv phase error
    | _ => simpa only [step,System.happens,phase] using inv
  | saved =>
    cases phase : s.machine.phase with
    | saving payment =>
      have machine_is : s.machine.advance .saved = s.machine.next := by simp [Machine.advance,phase]
      have turns : Turns s.machine (s.machine.advance .saved) := by
        rw [machine_is]
        exact turns_next _
      simp only [step,System.happens,phase]
      exact inOrder_turn inv turns (idle_of_phase inv phase (by simp) (by simp))
        (.inr ⟨payment,inv.saving payment phase,rfl⟩)
    | _ => simpa only [step,System.happens,phase] using inv
  | saveFailed written error =>
    cases phase : s.machine.phase with
    | saving payment =>
      have turns : Turns s.machine (s.machine.advance (.saveFailed error)) := by
        cases error with
        | none =>
          have machine_is : s.machine.advance (.saveFailed none) = s.machine.next := by simp [Machine.advance,phase]
          rw [machine_is]
          exact turns_next _
        | some error =>
          have machine_is : s.machine.advance (.saveFailed (some error)) = s.machine.caught error := by
            simp [Machine.advance,phase]
          rw [machine_is]
          exact turns_caught ..
      simp only [step,System.happens,phase]
      apply inOrder_turn inv turns (idle_of_phase inv phase (by simp) (by simp))
      cases written with
      | false => exact .inl rfl
      | true => exact .inr ⟨payment,inv.saving payment phase,rfl⟩
    | _ => simpa only [step,System.happens,phase] using inv
  | slept =>
    cases phase : s.machine.phase with
    | sleeping =>
      simp only [step,System.happens,phase]
      exact inOrder_tell inv (by simp [Machine.advance,phase]) (turns_top s.machine) (idle_of_phase inv phase (by simp) (by simp))
    | _ => simpa only [step,System.happens,phase] using inv
  | sleepFailed error =>
    cases phase : s.machine.phase with
    | sleeping =>
      simp only [step,System.happens,phase]
      exact inOrder_tell inv (m := { s.machine with phase := .threw error }) (by simp [Machine.advance,phase])
        (turns_phase rfl rfl rfl (.inr (.inr (.inr ⟨error,rfl⟩)))) (idle_of_phase inv phase (by simp) (by simp))
    | _ => simpa only [step,System.happens,phase] using inv

theorem startSeen_items (options : Options) (stored : Option Checkpoint) :
    ((startSeen options stored).foldl Recent.add (@Recent.empty String options.dedupWindow)).items =
      lastOnes options.dedupWindow (startSeen options stored) := by
  unfold startSeen
  by_cases given : options.initialCursor = none
  · rw [if_pos given]
    cases stored with
    | none => exact empty_items
    | some checkpoint => exact add_items empty_items List.not_mem_nil
  · rw [if_neg given]
    exact empty_items

theorem inOrder_start (feed : Feed options (loadedBy options loaded)) (aborted : Bool) :
    InOrder feed (System.start options loaded aborted) := by
  have turns := turns_top ({
    phase := .connecting
    cursor := startCursor options (loadedBy options loaded)
    seen := (startSeen options (loadedBy options loaded)).foldl Recent.add Recent.empty
    received := 0
    suppressed := 0
    attempt := 0
    aborted } : Machine options)
  exact {
    called := List.nil_prefix
    calls := .inl rfl
    handling := fun payment phase => absurd phase (turns.noCall payment)
    noRepeats := fun payment phase => absurd phase (turns.noCall payment)
    received := turns.received
    seen := by
      show (Machine.start options loaded aborted).seen.items = _
      rw [Machine.start,turns.seen,startSeen_items]
      simp [System.start]
    cursor := turns.cursor
    line := nofun
    stored := .inl rfl
    saving := fun payment phase => absurd phase (turns.noSave payment)
    result := by
      intro result phase
      obtain ⟨received,cursor⟩ := turns.result result phase
      exact ⟨received,cursor.trans turns.cursor.symm⟩ }

theorem ended_stays {s : System options} {result : ResilientStreamResult ⊕ StreamError}
    (ended : s.machine.phase = result.elim .returned .threw) (choices : List Choice) :
    run (step feed) s choices = s := by
  induction choices with
  | nil => rfl
  | cons choice rest ih =>
    have stays : (step feed s choice).2 = s := by
      cases result with
      | inl result => cases choice <;> simp_all [step,System.happens,System.tell,Machine.advance]
      | inr error => cases choice <;> simp_all [step,System.happens,System.tell,Machine.advance]
    rw [run_cons,stays]
    exact ih

/-- What has come of a run: calls in the order of the payments, one that returned for
    each that is counted, and cursors of such payments. -/
structure Delivered (feed : Feed options (loadedBy options loaded)) (s : System options) : Prop where
  inOrder : s.handled <+: feed.payments
  once : (s.handled.map PaymentDTO.id).Nodup
  called : s.called = s.handled ∨
    ∃ payment, feed.payments[s.handled.length]? = some payment ∧ s.called = s.handled ++ [payment]
  received : s.machine.received = s.handled.length
  cursor : s.machine.cursor = startCursor options (loadedBy options loaded) ∨
    ∃ payment ∈ s.handled, s.machine.cursor = some payment.cursor
  returned : ∀ result, s.machine.phase = .returned result →
    result.received = s.handled.length ∧ result.cursor = s.machine.cursor
  stored : s.stored = loaded ∨ ∃ payment ∈ s.handled, s.stored = some payment.checkpoint

theorem delivered_of_inOrder (inv : InOrder feed s) : Delivered feed s := by
  have calls : s.called = s.handled ∨
      ∃ payment, feed.payments[s.handled.length]? = some payment ∧ s.called = s.handled ++ [payment] := by
    rcases inv.calls with idle | ⟨payment,called,-⟩
    · exact .inl idle
    · refine .inr ⟨payment,?_,called⟩
      obtain ⟨later,parts⟩ := inv.called
      rw [← parts,called,List.append_assoc,List.getElem?_append_right (le_refl _),Nat.sub_self]
      rfl
  have inOrder : s.handled <+: feed.payments := by
    rcases calls with idle | ⟨payment,-,called⟩
    · exact idle ▸ inv.called
    · exact (List.prefix_append _ _).trans (called ▸ inv.called)
  refine ⟨inOrder,feed.ids.sublist (inOrder.map _).sublist,calls,inv.received,?_,inv.result,inv.stored⟩
  rw [inv.cursor]
  rcases List.eq_nil_or_concat' s.handled with none | ⟨earlier,last,handled_is⟩
  · exact .inl (by rw [none]; rfl)
  · exact .inr ⟨last,by simp [handled_is],by simp [handled_is,cursorAfter]⟩

theorem inOrder_run (feed : Feed options (loadedBy options loaded)) (aborted : Bool) (choices : List Choice) :
    InOrder feed (run (step feed) (System.start options loaded aborted) choices) :=
  run_inv inOrder_step (inOrder_start feed aborted) choices

/-- However the connections, the handler, the store and the signal behave: the payments are handled in order, once each, and the cursors
    are the first ones or of payments whose calls returned. A handler that fails ends the run, with the checkpoint as it was: of a
    payment before, or the one that the store held. -/
theorem stream_in_order (feed : Feed options (loadedBy options loaded)) (aborted : Bool) (choices : List Choice) :
    Delivered feed (run (step feed) (System.start options loaded aborted) choices) ∧
      (options.store = true → options.initialCursor = none → loaded.map Checkpoint.cursor =
        startCursor options (loadedBy options loaded)) ∧
      ∀ t ∈ history (step feed) (System.start options loaded aborted) choices, ∀ payment error,
        t.before.machine.phase = .handling payment → t.input = .handlerFailed error →
          t.after.machine.phase = .threw error ∧ payment ∉ t.after.handled ∧ t.after.stored = t.before.stored ∧
            Delivered feed t.after ∧ ∀ later, run (step feed) t.after later = t.after := by
  refine ⟨delivered_of_inOrder (inOrder_run feed aborted choices),?_,?_⟩
  · intro stores noCursor
    simp [startCursor,loadedBy,stores,noCursor]
  · intro t listed payment error handling failed
    obtain ⟨earlier,later,parts⟩ := List.append_of_mem listed
    obtain ⟨before,choice,after,-,-,t_is,-⟩ := history_split parts
    subst t_is
    have choice_is : choice = .handlerFailed error := failed
    subst choice_is
    have inv := inOrder_run feed aborted before
    generalize run (step feed) (System.start options loaded aborted) before = s at inv handling ⊢
    have phase : s.machine.phase = .handling payment := handling
    have after_is : (step feed s (.handlerFailed error)).2 = s.tell (.handlerFailed (some error)) := by
      simp only [step,System.happens,phase]
    have threw : (s.tell (.handlerFailed (some error))).machine.phase = .threw error := by
      simp [System.tell,Machine.advance,phase]
    have unhandled : payment ∉ s.handled := by
      intro member
      have called := inv.called
      rw [inv.handling payment phase] at called
      have distinct : (s.handled ++ [payment]).Nodup :=
        (List.Nodup.of_map _ feed.ids).sublist called.sublist
      rw [List.nodup_append] at distinct
      exact distinct.2.2 payment member payment (List.mem_singleton_self _) rfl
    show (step feed s (.handlerFailed error)).2.machine.phase = _ ∧ payment ∉ (step feed s (.handlerFailed error)).2.handled ∧
      (step feed s (.handlerFailed error)).2.stored = s.stored ∧ Delivered feed (step feed s (.handlerFailed error)).2 ∧
        ∀ later, run (step feed) (step feed s (.handlerFailed error)).2 later = (step feed s (.handlerFailed error)).2
    rw [after_is]
    exact ⟨threw,unhandled,rfl,delivered_of_inOrder (inOrder_failed inv phase error),
      @ended_stays options loaded feed _ (.inr error) threw⟩

/-- A stream that was told to begin before the checkpoint of its store. -/
def rewound : Feed ⟨true,some "c1",none,1000⟩ (loadedBy ⟨true,some "c1",none,1000⟩ (some ⟨"c3","p3"⟩)) where
  payments := [⟨"p2",some "c2"⟩,⟨"p3",some "c3"⟩]
  ids := by decide
  cursors := by decide
  initial := by decide
  unseen := by decide

/-- The handler fails on the first payment, and the checkpoint in the store is of the second. -/
theorem stored_behind_failed :
    let s := run (step rewound) (System.start _ (some ⟨"c3","p3"⟩) false) [.connected,.next,.handlerFailed (.other "failed")]
    s.machine.phase = .threw (.other "failed") ∧ s.called = [⟨"p2",some "c2"⟩] ∧ s.handled = [] ∧
      startCursor ⟨true,some "c1",none,1000⟩ (some ⟨"c3","p3"⟩) = some "c1" ∧
      s.stored = (⟨"p3",some "c3"⟩ : PaymentDTO).checkpoint := by decide

end StellarAlerts.StreamResumption
