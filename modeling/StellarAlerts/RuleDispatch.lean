import Mathlib.Data.List.Infix
import StellarAlerts.Histories
import StellarAlerts.RemoteCalls
import StellarAlerts.Watcher

/-!
The dispatch of alert rules. The log admits one row a payment, so no payment is alerted
twice; but a payment that was recorded is never enqueued by a later call, so every
payment is alerted as long as no call fails between the record and the job
(`settled_alerts`).
-/
namespace StellarAlerts.RuleDispatch
open Histories
open IntegerText (trim)
open RemoteCalls UniqueTables
open Watcher (NormalizedPaymentEvent PaymentContext AlertRuleDispatchLog)

/-- Amounts with the comparison `Number(a) >= Number(b)`, texts in lower case, and
    the engine of the conditions, which throws on an unknown operator. -/
structure Engine where
  Num : Type
  Conditions : Type
  atLeast : Num → Num → Bool
  toLowerCase : String → String
  evaluateRuleGroup : Conditions → PaymentContext Num → Except String Bool

variable {e : Engine}

structure AlertRuleRecord (e : Engine) where
  id : String
  userId : String
  walletId : Option String
  assets : List String
  minAmount : Option e.Num
  maxAmount : Option e.Num
  memo : Option String
  conditions : Option e.Conditions
  isActive : Bool

def ruleAppliesToWallet (rule : AlertRuleRecord e) (walletId : String) : Bool :=
  rule.walletId.all (· == walletId)
def ruleAppliesToAsset (rule : AlertRuleRecord e) (asset : String) : Bool :=
  rule.assets.isEmpty || rule.assets.contains asset
def meetsMinimumAmount (rule : AlertRuleRecord e) (amount : e.Num) : Bool :=
  rule.minAmount.all fun minAmount => e.atLeast amount minAmount
def meetsMaximumAmount (rule : AlertRuleRecord e) (amount : e.Num) : Bool :=
  rule.maxAmount.all fun maxAmount => e.atLeast maxAmount amount

def ruleAppliesToMemo (rule : AlertRuleRecord e) (memo : Option String) : Bool :=
  match rule.memo with
  | none => true
  | some wanted =>
    if (trim wanted.toList).isEmpty then true
    else
      match memo with
      | none => false
      | some memo =>
        if memo.toList.isEmpty then false
        else decide ((e.toLowerCase wanted).toList <:+: (e.toLowerCase memo).toList)

def matchesAlertRule (rule : AlertRuleRecord e) (event : NormalizedPaymentEvent e.Num) : Except String Bool :=
  if !rule.isActive then .ok false
  else if !ruleAppliesToWallet rule event.walletId then .ok false
  else if !ruleAppliesToAsset rule event.asset then .ok false
  else if !meetsMinimumAmount rule event.amount then .ok false
  else if !meetsMaximumAmount rule event.amount then .ok false
  else if !ruleAppliesToMemo rule event.memo then .ok false
  else
    match rule.conditions with
    | none => .ok true
    | some conditions => e.evaluateRuleGroup conditions ⟨event.amount,event.asset,event.fromAddress,event.memo⟩

/-- The rules that match, in order; the first that throws ends the evaluation. -/
def evaluateAlertRules (event : NormalizedPaymentEvent e.Num) :
    List (AlertRuleRecord e) → Except String (List (AlertRuleRecord e))
  | [] => .ok []
  | rule :: rest =>
    match matchesAlertRule rule event with
    | .error message => .error message
    | .ok matched =>
      match evaluateAlertRules event rest with
      | .error message => .error message
      | .ok others => .ok (if matched then rule :: others else others)

/-- The payments and the stored rules of each user. -/
structure Service (e : Engine) where
  payments : String → NormalizedPaymentEvent e.Num
  findRules : String → List (AlertRuleRecord e)

def Service.event (service : Service e) (paymentId : String) : NormalizedPaymentEvent e.Num :=
  { service.payments paymentId with paymentId := paymentId }

/-- What evaluating the rules of a payment's user answers. -/
def Service.matched (service : Service e) (paymentId : String) : Except String (List (AlertRuleRecord e)) :=
  evaluateAlertRules (service.event paymentId) (service.findRules (service.event paymentId).userId)

/-- Where a call of `evaluateAndDispatch` stands. -/
inductive Phase where
  | loading
  | checking (matchedRuleIds : List String)
  | recording (matchedRuleIds : List String)
  | enqueueing (matchedRuleIds : List String)
  | returned (matchedRuleIds : List String) (enqueued : Bool)
  | failed (message : String)
deriving DecidableEq, Repr

def Phase.ended : Phase → Bool
  | .returned _ _ => true
  | .failed _ => true
  | _ => false

structure Call where
  paymentId : String
  phase : Phase
deriving DecidableEq, Repr

/-- The dispatch log, the alerts that were enqueued and the calls, by number. -/
structure System (e : Engine) where
  alertRuleDispatchLog : Table AlertRuleDispatchLog AlertRuleDispatchLog.clash
  alertQueue : List (NormalizedPaymentEvent e.Num)
  calls : Nat → Option Call

def System.start : System e := ⟨.empty,[],fun _ => none⟩
def System.put (s : System e) (c : Nat) (call : Call) : System e :=
  { s with calls := fun d => if d = c then some call else s.calls d }

/-- `hasDispatched`. -/
def System.dispatched (s : System e) (paymentId : String) : Bool :=
  s.alertRuleDispatchLog.rows.any fun row => row.paymentId == paymentId

inductive Event where
  | evaluateAndDispatch (c : Nat) (paymentId : String)
  | answer (c : Nat) (outcome : Outcome)
  | exit (c : Nat)
deriving DecidableEq, Repr

/-- The dependency that a call waits for answers. -/
def System.answer (service : Service e) (s : System e) (c : Nat) (paymentId : String) (outcome : Outcome) :
    Phase → System e
  | .loading =>
    s.put c ⟨paymentId,
      match outcome.error with
      | some message => .failed message
      | none =>
        match service.matched paymentId with
        | .error message => .failed message
        | .ok [] => .returned [] false
        | .ok matched => .checking (matched.map (·.id))⟩
  | .checking matchedRuleIds =>
    s.put c ⟨paymentId,
      match outcome.error with
      | some message => .failed message
      | none => if s.dispatched paymentId then .returned matchedRuleIds false else .recording matchedRuleIds⟩
  | .recording matchedRuleIds =>
    if outcome.applied then
      match s.alertRuleDispatchLog.insert ⟨paymentId,matchedRuleIds⟩ with
      | none => s.put c ⟨paymentId,.failed "Unique constraint failed on the fields: (`paymentId`)"⟩
      | some log =>
        { s with alertRuleDispatchLog := log }.put c ⟨paymentId,
          match outcome.error with
          | some message => .failed message
          | none => .enqueueing matchedRuleIds⟩
    else s.put c ⟨paymentId,.failed (outcome.error.getD "")⟩
  | .enqueueing matchedRuleIds =>
    { s with alertQueue := outcome.write (· ++ [service.event paymentId]) s.alertQueue }.put c ⟨paymentId,
      match outcome.error with
      | some message => .failed message
      | none => .returned matchedRuleIds true⟩
  | .returned _ _ => s
  | .failed _ => s

def step (service : Service e) (s : System e) : Event → Unit × System e
  | .evaluateAndDispatch c paymentId =>
    match s.calls c with
    | none => ((),s.put c ⟨paymentId,.loading⟩)
    | some call => if call.phase.ended then ((),s.put c ⟨paymentId,.loading⟩) else ((),s)
  | .answer c outcome =>
    match s.calls c with
    | none => ((),s)
    | some call => ((),s.answer service c call.paymentId outcome call.phase)
  | .exit c =>
    match s.calls c with
    | none => ((),s)
    | some call => if call.phase.ended then ((),s) else ((),s.put c ⟨call.paymentId,.failed "exit"⟩)

/-- Some enabled rule of the payment's user matches it, and none throws. -/
def Service.Matches (service : Service e) (paymentId : String) : Prop :=
  ∃ matched, service.matched paymentId = .ok matched ∧ matched ≠ []

/-- What a call knows where it stands. -/
def PhaseOk (service : Service e) (dispatched : Bool) (paymentId : String) : Phase → Prop
  | .checking _ => service.Matches paymentId
  | .recording _ => service.Matches paymentId
  | .enqueueing _ => service.Matches paymentId
  | .returned _ _ => service.matched paymentId = .ok [] ∨ (service.Matches paymentId ∧ dispatched = true)
  | _ => True

/-- The call enqueues its alert next. -/
def Phase.enqueues : Phase → Bool
  | .enqueueing _ => true
  | _ => false

/-- The call fails between the record and the job: the record went in unanswered, or the job was not enqueued. -/
def Loses (s : System e) : Event → Prop
  | .answer c outcome =>
    ∃ call, s.calls c = some call ∧
      ((∃ ids message, call.phase = .recording ids ∧ outcome = .lost message ∧ s.dispatched call.paymentId = false) ∨
        (call.phase.enqueues = true ∧ outcome.applied = false))
  | .exit c => ∃ call, s.calls c = some call ∧ call.phase.enqueues = true
  | _ => False

/-- What a step does that loses no alert. -/
inductive Effect (service : Service e) (s : System e) : System e → Prop where
  | same : Effect service s s
  | moved {c : Nat} {paymentId : String} {phase : Phase}
    (from_ : ∀ call, s.calls c = some call → call.phase.enqueues = false) (to_ : phase.enqueues = false)
    (ok : (∀ call, s.calls c = some call → PhaseOk service (s.dispatched call.paymentId) call.paymentId call.phase) →
      PhaseOk service (s.dispatched paymentId) paymentId phase) : Effect service s (s.put c ⟨paymentId,phase⟩)
  | recorded {c : Nat} {paymentId : String} {ids : List String}
    {log : Table AlertRuleDispatchLog AlertRuleDispatchLog.clash}
    (stands : s.calls c = some ⟨paymentId,.recording ids⟩)
    (inserted : s.alertRuleDispatchLog.insert ⟨paymentId,ids⟩ = some log) :
    Effect service s ({ s with alertRuleDispatchLog := log }.put c ⟨paymentId,.enqueueing ids⟩)
  | enqueued {c : Nat} {paymentId : String} {ids : List String} {phase : Phase}
    (stands : s.calls c = some ⟨paymentId,.enqueueing ids⟩)
    (ends : phase = .returned ids true ∨ ∃ message, phase = .failed message) :
    Effect service s ({ s with alertQueue := s.alertQueue ++ [service.event paymentId] }.put c ⟨paymentId,phase⟩)

variable {s : System e} {c : Nat} {call : Call}

theorem enqueues_at (stands : s.calls c = some call) (quiet : call.phase.enqueues = false) :
    ∀ other, s.calls c = some other → other.phase.enqueues = false := by
  intro other found
  rw [stands] at found
  cases found
  exact quiet

variable {service : Service e} {paymentId : String}

theorem loading_effect (stands : s.calls c = some ⟨paymentId,.loading⟩) (outcome : Outcome) :
    Effect service s (s.answer service c paymentId outcome .loading) := by
  have from_ := enqueues_at stands rfl
  simp only [System.answer]
  cases outcome.error with
  | some message => exact .moved from_ rfl (fun _ => trivial)
  | none =>
    cases evaluated : service.matched paymentId with
    | error message => exact .moved from_ rfl (fun _ => trivial)
    | ok matched =>
      cases matched with
      | nil => exact .moved from_ rfl (fun _ => .inl evaluated)
      | cons rule rest => exact .moved from_ rfl (fun _ => ⟨rule :: rest,evaluated,by simp⟩)

variable {ids : List String}

theorem checking_effect (stands : s.calls c = some ⟨paymentId,.checking ids⟩) (outcome : Outcome) :
    Effect service s (s.answer service c paymentId outcome (.checking ids)) := by
  have from_ := enqueues_at stands rfl
  simp only [System.answer]
  cases outcome.error with
  | some message => exact .moved from_ rfl (fun _ => trivial)
  | none =>
    by_cases logged : s.dispatched paymentId = true
    · simp only [logged,↓reduceIte]
      exact .moved from_ rfl (fun ok => .inr ⟨ok _ stands,logged⟩)
    · simp only [logged]
      exact .moved from_ rfl (fun ok => ok _ stands)

theorem dispatched_iff_holds (s : System e) (paymentId : String) (ids : List String) :
    s.dispatched paymentId = s.alertRuleDispatchLog.holds ⟨paymentId,ids⟩ := rfl

theorem recording_effect (stands : s.calls c = some ⟨paymentId,.recording ids⟩) {outcome : Outcome}
    (kept : ¬ Loses s (.answer c outcome)) : Effect service s (s.answer service c paymentId outcome (.recording ids)) := by
  have from_ := enqueues_at stands rfl
  cases outcome with
  | failed message => exact .moved from_ rfl (fun _ => trivial)
  | ok =>
    cases inserted : s.alertRuleDispatchLog.insert ⟨paymentId,ids⟩ with
    | none =>
      simp only [System.answer,Outcome.applied,↓reduceIte,inserted]
      exact .moved from_ rfl (fun _ => trivial)
    | some log =>
      simp only [System.answer,Outcome.applied,Outcome.error,↓reduceIte,inserted]
      exact .recorded stands inserted
  | lost message =>
    cases inserted : s.alertRuleDispatchLog.insert ⟨paymentId,ids⟩ with
    | none =>
      simp only [System.answer,Outcome.applied,↓reduceIte,inserted]
      exact .moved from_ rfl (fun _ => trivial)
    | some log =>
      have free : s.dispatched paymentId = false := by
        rw [dispatched_iff_holds s paymentId ids,← Bool.not_eq_true,← insert_eq_none,inserted]
        simp
      exact absurd ⟨_,stands,.inl ⟨ids,message,rfl,rfl,free⟩⟩ kept

theorem enqueueing_effect (stands : s.calls c = some ⟨paymentId,.enqueueing ids⟩) {outcome : Outcome}
    (kept : ¬ Loses s (.answer c outcome)) : Effect service s (s.answer service c paymentId outcome (.enqueueing ids)) := by
  cases outcome with
  | failed message => exact absurd ⟨_,stands,.inr ⟨rfl,rfl⟩⟩ kept
  | ok => exact .enqueued stands (.inl rfl)
  | lost message => exact .enqueued stands (.inr ⟨message,rfl⟩)

theorem step_effect (service : Service e) {input : Event} (kept : ¬ Loses s input) :
    Effect service s (step service s input).2 := by
  cases input with
  | evaluateAndDispatch c paymentId =>
    cases found : s.calls c with
    | none =>
      simp only [step,found]
      exact .moved (by simp [found]) rfl (fun _ => trivial)
    | some call =>
      by_cases ended : call.phase.ended = true
      · simp only [step,found,ended,↓reduceIte]
        refine .moved ?_ rfl (fun _ => trivial)
        intro other same
        rw [found] at same
        cases same
        cases phase : call.phase <;> simp_all [Phase.ended,Phase.enqueues]
      · simp only [step,found,ended]
        exact .same
  | answer c outcome =>
    cases found : s.calls c with
    | none =>
      simp only [step,found]
      exact .same
    | some call =>
      obtain ⟨paymentId,phase⟩ := call
      simp only [step,found]
      cases phase with
      | loading => exact loading_effect found outcome
      | checking ids => exact checking_effect found outcome
      | recording ids => exact recording_effect found kept
      | enqueueing ids => exact enqueueing_effect found kept
      | returned ids enqueued => exact .same
      | failed message => exact .same
  | exit c =>
    cases found : s.calls c with
    | none =>
      simp only [step,found]
      exact .same
    | some call =>
      by_cases ended : call.phase.ended = true
      · simp only [step,found,ended,↓reduceIte]
        exact .same
      · simp only [step,found,ended]
        refine .moved ?_ rfl (fun _ => trivial)
        intro other same
        rw [found] at same
        cases same
        by_contra enqueues
        exact kept ⟨call,found,by simpa using enqueues⟩

/-- The alerts that were enqueued for a payment. -/
def jobs (s : System e) (paymentId : String) : Nat := s.alertQueue.countP fun event => event.paymentId == paymentId

/-- The call enqueues the payment's alert next. -/
def Enqueueing (s : System e) (paymentId : String) (c : Nat) : Prop := ∃ ids, s.calls c = some ⟨paymentId,.enqueueing ids⟩

/-- A payment is not recorded, or recorded with one call that enqueues it, or recorded and enqueued. -/
def Staged (s : System e) (paymentId : String) : Prop :=
  (s.dispatched paymentId = false ∧ jobs s paymentId = 0 ∧ ∀ c, ¬ Enqueueing s paymentId c) ∨
    (s.dispatched paymentId = true ∧ jobs s paymentId = 0 ∧ ∃ c, ∀ d, Enqueueing s paymentId d ↔ d = c) ∨
    (s.dispatched paymentId = true ∧ jobs s paymentId = 1 ∧ ∀ c, ¬ Enqueueing s paymentId c)

structure Sound (service : Service e) (s : System e) : Prop where
  phases : ∀ c call, s.calls c = some call → PhaseOk service (s.dispatched call.paymentId) call.paymentId call.phase
  logged : ∀ paymentId, s.dispatched paymentId = true → service.Matches paymentId
  staged : ∀ paymentId, Staged s paymentId

theorem put_calls (s : System e) (c d : Nat) (call : Call) :
    (s.put c call).calls d = if d = c then some call else s.calls d := rfl
@[simp] theorem put_dispatched (s : System e) (c : Nat) (call : Call) (paymentId : String) :
    (s.put c call).dispatched paymentId = s.dispatched paymentId := rfl
@[simp] theorem put_jobs (s : System e) (c : Nat) (call : Call) (paymentId : String) :
    jobs (s.put c call) paymentId = jobs s paymentId := rfl

theorem enqueueing_put {d : Nat} :
    Enqueueing (s.put c call) paymentId d ↔
      (d = c ∧ ∃ ids, call = ⟨paymentId,.enqueueing ids⟩) ∨ (d ≠ c ∧ Enqueueing s paymentId d) := by
  unfold Enqueueing
  rw [put_calls]
  by_cases own : d = c
  · simp [own]
  · simp [own]

theorem enqueueing_put_same {d : Nat} (before : ¬ Enqueueing s paymentId c)
    (after : ∀ ids, call ≠ ⟨paymentId,.enqueueing ids⟩) :
    Enqueueing (s.put c call) paymentId d ↔ Enqueueing s paymentId d := by
  rw [enqueueing_put]
  constructor
  · rintro (⟨_,ids,same⟩ | ⟨_,held⟩)
    · exact absurd same (after ids)
    · exact held
  · intro held
    refine .inr ⟨?_,held⟩
    rintro rfl
    exact before held

theorem not_enqueueing (quiet : ∀ call, s.calls c = some call → call.phase.enqueues = false) (paymentId : String) :
    ¬ Enqueueing s paymentId c := by
  rintro ⟨ids,found⟩
  cases quiet _ found

variable {phase : Phase}

theorem phaseOk_logged {before after : Bool} (grows : before = true → after = true)
    (ok : PhaseOk service before paymentId phase) : PhaseOk service after paymentId phase := by
  cases phase with
  | returned ids enqueued => exact ok.imp_right (fun both => ⟨both.1,grows both.2⟩)
  | _ => exact ok

theorem phases_put {service : Service e} {s t : System e} (calls : t.calls = s.calls)
    (grows : ∀ paymentId, s.dispatched paymentId = true → t.dispatched paymentId = true) (sound : Sound service s)
    {c : Nat} {new : Call} (ok : PhaseOk service (t.dispatched new.paymentId) new.paymentId new.phase) :
    ∀ d call, (t.put c new).calls d = some call →
      PhaseOk service ((t.put c new).dispatched call.paymentId) call.paymentId call.phase := by
  intro d call found
  rw [put_calls] at found
  rw [put_dispatched]
  by_cases own : d = c
  · simp only [own,↓reduceIte,Option.some.injEq] at found
    exact found ▸ ok
  · simp only [own,↓reduceIte,calls] at found
    exact phaseOk_logged (grows call.paymentId) (sound.phases d call found)

theorem sound_moved (sound : Sound service s) (from_ : ∀ call, s.calls c = some call → call.phase.enqueues = false)
    (to_ : phase.enqueues = false) (ok : PhaseOk service (s.dispatched paymentId) paymentId phase) :
    Sound service (s.put c ⟨paymentId,phase⟩) := by
  refine ⟨phases_put rfl (fun _ logged => logged) sound ok,sound.logged,?_⟩
  intro other
  have unchanged : ∀ d, Enqueueing (s.put c ⟨paymentId,phase⟩) other d ↔ Enqueueing s other d := by
    intro d
    refine enqueueing_put_same (not_enqueueing from_ other) ?_
    rintro ids ⟨⟩
    cases to_
  simpa only [Staged,put_dispatched,put_jobs,unchanged] using sound.staged other

variable {log : Table AlertRuleDispatchLog AlertRuleDispatchLog.clash}

theorem dispatched_insert (inserted : s.alertRuleDispatchLog.insert ⟨paymentId,ids⟩ = some log) (other : String) :
    System.dispatched { s with alertRuleDispatchLog := log } other = (s.dispatched other || paymentId == other) := by
  simp [System.dispatched,insert_rows inserted]

theorem sound_recorded (sound : Sound service s) (stands : s.calls c = some ⟨paymentId,.recording ids⟩)
    (inserted : s.alertRuleDispatchLog.insert ⟨paymentId,ids⟩ = some log) :
    Sound service ({ s with alertRuleDispatchLog := log }.put c ⟨paymentId,.enqueueing ids⟩) := by
  have matched : service.Matches paymentId := sound.phases c _ stands
  have free : s.dispatched paymentId = false := by
    rw [dispatched_iff_holds s paymentId ids,← Bool.not_eq_true,← insert_eq_none,inserted]
    simp
  have logged := dispatched_insert inserted
  have quiet : ∀ other, ¬ Enqueueing s other c := not_enqueueing (enqueues_at stands rfl)
  have grows : ∀ other, s.dispatched other = true → System.dispatched { s with alertRuleDispatchLog := log } other = true := by
    intro other was
    rw [logged,was]
    rfl
  refine ⟨@phases_put e service s { s with alertRuleDispatchLog := log } rfl grows sound c ⟨paymentId,.enqueueing ids⟩
    matched,?_,?_⟩
  · intro other is
    rw [put_dispatched,logged,Bool.or_eq_true,beq_iff_eq] at is
    rcases is with was | rfl
    · exact sound.logged other was
    · exact matched
  · intro other
    by_cases own : paymentId = other
    · subst own
      rcases sound.staged paymentId with ⟨_,none_,alone⟩ | ⟨was,_⟩ | ⟨was,_⟩
      · refine .inr (.inl ⟨?_,none_,c,?_⟩)
        · rw [put_dispatched,logged]
          simp
        · intro d
          rw [enqueueing_put]
          constructor
          · rintro (⟨same,_⟩ | ⟨_,held⟩)
            · exact same
            · exact absurd held (alone d)
          · exact fun same => .inl ⟨same,ids,rfl⟩
      · rw [free] at was; cases was
      · rw [free] at was; cases was
    · have unchanged : ∀ d, Enqueueing ({ s with alertRuleDispatchLog := log }.put c ⟨paymentId,.enqueueing ids⟩) other d ↔
          Enqueueing s other d := by
        intro d
        refine enqueueing_put_same (quiet other) ?_
        rintro _ ⟨⟩
        exact own rfl
      have same : System.dispatched { s with alertRuleDispatchLog := log } other = s.dispatched other := by
        rw [logged]
        simp [own]
      simp only [Staged,put_dispatched,unchanged,same]
      exact sound.staged other

theorem sound_enqueued (sound : Sound service s) (stands : s.calls c = some ⟨paymentId,.enqueueing ids⟩)
    (ends : phase = .returned ids true ∨ ∃ message, phase = .failed message) :
    Sound service ({ s with alertQueue := s.alertQueue ++ [service.event paymentId] }.put c ⟨paymentId,phase⟩) := by
  have matched : service.Matches paymentId := sound.phases c _ stands
  have count : ∀ other, jobs { s with alertQueue := s.alertQueue ++ [service.event paymentId] } other =
      jobs s other + if paymentId = other then 1 else 0 := by
    intro other
    simp [jobs,List.countP_append,List.countP_cons,Service.event]
  have silent : ∀ other, ¬ ∃ ids, (⟨paymentId,phase⟩ : Call) = ⟨other,.enqueueing ids⟩ := by
    rintro other ⟨_,same⟩
    cases same
    rcases ends with same | ⟨_,same⟩ <;> cases same
  have stage : s.dispatched paymentId = true ∧ jobs s paymentId = 0 ∧ ∀ d, Enqueueing s paymentId d ↔ d = c := by
    rcases sound.staged paymentId with ⟨_,_,alone⟩ | ⟨is,none_,d,only⟩ | ⟨_,_,alone⟩
    · exact absurd ⟨ids,stands⟩ (alone c)
    · have own := (only c).mp ⟨ids,stands⟩
      exact ⟨is,none_,own ▸ only⟩
    · exact absurd ⟨ids,stands⟩ (alone c)
  obtain ⟨is,none_,only⟩ := stage
  refine ⟨phases_put rfl (fun _ was => was) sound ?_,sound.logged,?_⟩
  · rcases ends with rfl | ⟨_,rfl⟩
    · exact .inr ⟨matched,is⟩
    · trivial
  · intro other
    by_cases own : paymentId = other
    · subst own
      refine .inr (.inr ⟨is,?_,?_⟩)
      · rw [put_jobs,count,none_]
        simp
      · intro d
        rw [enqueueing_put]
        rintro (⟨_,same⟩ | ⟨apart,held⟩)
        · exact silent paymentId same
        · exact apart ((only d).mp held)
    · have unchanged : ∀ d, Enqueueing
          ({ s with alertQueue := s.alertQueue ++ [service.event paymentId] }.put c ⟨paymentId,phase⟩) other d ↔
          Enqueueing s other d := by
        intro d
        refine enqueueing_put_same ?_ fun ids same => silent other ⟨ids,same⟩
        rintro ⟨_,found⟩
        rw [stands] at found
        cases found
        exact own rfl
      have same : jobs { s with alertQueue := s.alertQueue ++ [service.event paymentId] } other = jobs s other := by
        rw [count]
        simp [own]
      simp only [Staged,put_jobs,unchanged,same]
      exact sound.staged other

theorem sound_step (service : Service e) (s : System e) (input : Event) (kept : ¬ Loses s input)
    (sound : Sound service s) : Sound service (step service s input).2 := by
  have effect := step_effect service kept
  generalize (step service s input).2 = after at effect
  cases effect with
  | same => exact sound
  | moved from_ to_ ok => exact sound_moved sound from_ to_ (ok (sound.phases _))
  | recorded stands inserted => exact sound_recorded sound stands inserted
  | enqueued stands ends => exact sound_enqueued sound stands ends

theorem sound_start (service : Service e) : Sound service System.start :=
  ⟨fun _ _ found => (by cases found),fun _ logged => (by cases logged),
    fun _ => .inl ⟨rfl,rfl,fun _ ⟨_,found⟩ => (by cases found)⟩⟩

theorem evaluateAlertRules_eq_ok {event : NormalizedPaymentEvent e.Num} {rules matched : List (AlertRuleRecord e)}
    (evaluated : evaluateAlertRules event rules = .ok matched) :
    matched ≠ [] ↔ ∃ rule ∈ rules, matchesAlertRule rule event = .ok true := by
  induction rules generalizing matched with
  | nil =>
    cases evaluated
    simp
  | cons rule rest ih =>
    unfold evaluateAlertRules at evaluated
    cases first : matchesAlertRule rule event with
    | error message => simp [first] at evaluated
    | ok fits =>
      cases others : evaluateAlertRules event rest with
      | error message => simp [first,others] at evaluated
      | ok later =>
        simp only [first,others,Except.ok.injEq] at evaluated
        cases fits with
        | true => simp [← evaluated,first]
        | false => simp [← evaluated,first,ih others]

/-- All calls for the payment have ended, and one of them returned without error. -/
def Settled (s : System e) (paymentId : String) : Prop :=
  (∀ c call, s.calls c = some call → call.paymentId = paymentId → call.phase.ended = true) ∧
    ∃ c ids enqueued, s.calls c = some ⟨paymentId,.returned ids enqueued⟩

/-- The user of the payment has an enabled rule that matches it. -/
def Service.Alerts (service : Service e) (paymentId : String) : Prop :=
  ∃ rule ∈ service.findRules (service.event paymentId).userId, matchesAlertRule rule (service.event paymentId) = .ok true

/-- In every run in which no call fails between the record and the job, a payment whose calls have ended, one of them without error, has
    one alert if a rule matches it and none otherwise. -/
theorem settled_alerts (service : Service e) (inputs : List Event)
    (kept : ∀ t ∈ history (step service) System.start inputs, ¬ Loses t.before t.input) (paymentId : String)
    (settled : Settled (run (step service) System.start inputs) paymentId) :
    (service.Alerts paymentId → jobs (run (step service) System.start inputs) paymentId = 1) ∧
      (¬ service.Alerts paymentId → jobs (run (step service) System.start inputs) paymentId = 0) := by
  have sound : Sound service (run (step service) System.start inputs) :=
    run_inv_of_meets (sound_step service) kept (sound_start service)
  generalize run (step service) System.start inputs = s at settled sound
  obtain ⟨ended,c,ids,enqueued,stands⟩ := settled
  have quiet : ∀ d, ¬ Enqueueing s paymentId d := by
    rintro d ⟨_,found⟩
    cases ended d _ found rfl
  rcases sound.phases c _ stands with evaluated | ⟨⟨matched,evaluated,some_⟩,logged⟩
  · have no : ¬ service.Alerts paymentId := by
      intro alerts
      exact (evaluateAlertRules_eq_ok evaluated).mpr alerts rfl
    refine ⟨fun alerts => absurd alerts no,fun _ => ?_⟩
    rcases sound.staged paymentId with ⟨_,none_,_⟩ | ⟨_,none_,_⟩ | ⟨logged,_⟩
    · exact none_
    · exact none_
    · obtain ⟨matched,other,some_⟩ := sound.logged paymentId logged
      rw [evaluated] at other
      cases other
      exact absurd rfl some_
  · have yes : service.Alerts paymentId := (evaluateAlertRules_eq_ok evaluated).mp some_
    refine ⟨fun _ => ?_,fun no => absurd yes no⟩
    rcases sound.staged paymentId with ⟨free,_⟩ | ⟨_,_,d,only⟩ | ⟨_,one,_⟩
    · rw [logged] at free
      cases free
    · exact absurd ((only d).mpr rfl) (quiet d)
    · exact one

/-- A payment of 10 XLM and one rule without conditions. -/
def sampleEngine : Engine := ⟨Nat,Unit,fun a b => decide (b ≤ a),id,fun _ _ => .ok true⟩

def sampleService : Service sampleEngine :=
  ⟨fun paymentId => ⟨paymentId,"tx1","w1","u1",(10 : Nat),"XLM",none,"GA",none,"2026-01-01T00:00:00.000Z"⟩,
    fun _ => [⟨"r1","u1",none,[],none,none,none,none,true⟩]⟩

/-- Two calls race up to the record; the one that comes second fails there and is made again. -/
def sampleRace : List Event :=
  [.evaluateAndDispatch 0 "p1",.evaluateAndDispatch 1 "p1",.answer 0 .ok,.answer 1 .ok,.answer 0 .ok,.answer 1 .ok,
   .answer 0 .ok,.answer 1 .ok,.answer 0 .ok,.evaluateAndDispatch 1 "p1",.answer 1 .ok,.answer 1 .ok]

theorem answered_not_lost (s : System e) (c : Nat) : ¬ Loses s (.answer c .ok) := by
  rintro ⟨call,_,⟨ids,message,_,lost,_⟩ | ⟨_,refused⟩⟩
  · cases lost
  · cases refused

theorem sampleRace_kept : ∀ t ∈ history (step sampleService) System.start sampleRace, ¬ Loses t.before t.input := by
  intro t member
  have listed := input_mem_of_history member
  simp only [sampleRace,List.mem_cons,List.not_mem_nil,or_false] at listed
  rcases listed with is | is | is | is | is | is | is | is | is | is | is | is <;> rw [is] <;>
    first | exact answered_not_lost _ _ | exact id

theorem sampleRace_settled : Settled (run (step sampleService) System.start sampleRace) "p1" := by
  constructor
  · intro c call found _
    match c with
    | 0 => cases found; rfl
    | 1 => cases found; rfl
    | n + 2 => cases found
  · exact ⟨0,["r1"],true,rfl⟩

theorem race_alerts_once : jobs (run (step sampleService) System.start sampleRace) "p1" = 1 :=
  (settled_alerts sampleService sampleRace sampleRace_kept "p1" sampleRace_settled).1
    ⟨⟨"r1","u1",none,[],none,none,none,none,true⟩,List.mem_singleton_self _,rfl⟩

/-- Every payment whose calls have ended, one of them without error, has its alert. -/
def ExactlyOnce : Prop :=
  ∀ (e : Engine) (service : Service e) (inputs : List Event) (paymentId : String),
    Settled (run (step service) System.start inputs) paymentId →
      (service.Alerts paymentId → jobs (run (step service) System.start inputs) paymentId = 1) ∧
        (¬ service.Alerts paymentId → jobs (run (step service) System.start inputs) paymentId = 0)

/-- The queue refuses the job after the record; the call is made again and returns without error. -/
def refusedJob : List Event :=
  [.evaluateAndDispatch 0 "p1",.answer 0 .ok,.answer 0 .ok,.answer 0 .ok,.answer 0 (.failed "ECONNREFUSED"),
   .evaluateAndDispatch 1 "p1",.answer 1 .ok,.answer 1 .ok]

theorem refused_job_unalerted : ¬ ExactlyOnce := by
  intro once
  have settled : Settled (run (step sampleService) System.start refusedJob) "p1" := by
    constructor
    · intro c call found _
      match c with
      | 0 => cases found; rfl
      | 1 => cases found; rfl
      | n + 2 => cases found
    · exact ⟨1,["r1"],false,rfl⟩
  have one := (once sampleEngine sampleService refusedJob "p1" settled).1
    ⟨⟨"r1","u1",none,[],none,none,none,none,true⟩,List.mem_singleton_self _,rfl⟩
  cases one

end StellarAlerts.RuleDispatch
