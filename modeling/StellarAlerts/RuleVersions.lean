import StellarAlerts.Interleaving
import StellarAlerts.JsonTexts

/-!
The versions of alert rules. Calls that expect the same version exclude each other as
long as no other write comes between the two queries of one of them (`one_winner`);
otherwise both write.
-/
namespace StellarAlerts.RuleVersions
open Histories
open Interleaving hiding step
open JsonTexts

/-- A row of the rule table; amounts are the texts of their decimals. -/
structure AlertRule where
  id : String
  userId : String
  walletId : Option String
  name : Option String
  assets : List String
  minAmount : Option String
  maxAmount : Option String
  memo : Option String
  channels : List String
  conditions : Option Json
  version : Int
  isActive : Bool

/-- The fields of a request: none where one is undefined, `some none` where it is
    null. Amounts are given by the texts that `String` makes of them. -/
structure UpdateAlertRuleDto where
  name : Option (Option String) := none
  walletId : Option (Option String) := none
  assets : Option (List String) := none
  minAmount : Option (Option String) := none
  maxAmount : Option (Option String) := none
  memo : Option (Option String) := none
  channels : Option (List String) := none
  conditions : Option (Option Json) := none
  isActive : Option Bool := none
  expectedVersion : Option Int := none

/-- The `wallet` of an update. -/
inductive WalletWrite where
  | connect (id : String)
  | disconnect
  deriving DecidableEq, Repr

/-- The fields of `updateData` beside the increment of the version. -/
structure UpdateData where
  name : Option (Option String)
  wallet : Option WalletWrite
  assets : Option (List String)
  minAmount : Option (Option String)
  maxAmount : Option (Option String)
  memo : Option (Option String)
  channels : Option (List String)
  conditions : Option (Option Json)
  isActive : Option Bool

/-- `walletId ? { connect } : { disconnect }`. -/
def walletWrite : Option String → WalletWrite
  | none => .disconnect
  | some id => if id = "" then .disconnect else .connect id

def UpdateAlertRuleDto.updateData (data : UpdateAlertRuleDto) : UpdateData where
  name := data.name
  wallet := data.walletId.map walletWrite
  assets := data.assets
  minAmount := data.minAmount
  maxAmount := data.maxAmount
  memo := data.memo
  channels := data.channels
  conditions := data.conditions
  isActive := data.isActive

def WalletWrite.walletId : WalletWrite → Option String
  | .connect id => some id
  | .disconnect => none

/-- The row after an update. -/
def AlertRule.update (rule : AlertRule) (data : UpdateData) : AlertRule where
  id := rule.id
  userId := rule.userId
  walletId := (data.wallet.map WalletWrite.walletId).getD rule.walletId
  name := data.name.getD rule.name
  assets := data.assets.getD rule.assets
  minAmount := data.minAmount.getD rule.minAmount
  maxAmount := data.maxAmount.getD rule.maxAmount
  memo := data.memo.getD rule.memo
  channels := data.channels.getD rule.channels
  conditions := data.conditions.getD rule.conditions
  version := rule.version + 1
  isActive := data.isActive.getD rule.isActive

/-- The rule table, by id. -/
abbrev World := String → Option AlertRule

inductive Query where
  | findFirst (id userId : String)
  | update (id : String) (data : UpdateData)

def Value : Query → Type
  | .findFirst _ _ => Option AlertRule
  | .update _ _ => AlertRule

abbrev Code (α : Type) := Interleaving.Code Query Value α
def ask (q : Query) : Code (Value q) := query q
def notFound : String := "Alert rule not found or unauthorized"
def conflict (expectedVersion version : Int) : String :=
  "Concurrency conflict: expected version " ++ toString expectedVersion ++ " but rule is at version " ++ toString version

/-- `alertRule.update` with the `updateData` of a request. -/
def writeRule (id : String) (data : UpdateAlertRuleDto) : Code AlertRule := ask (.update id data.updateData)

def updateRule (id userId : String) (data : UpdateAlertRuleDto) : Code AlertRule := do
  let existing : Option AlertRule ← ask (.findFirst id userId)
  match existing with
  | none => throw notFound
  | some rule =>
    match data.expectedVersion with
    | none => writeRule id data
    | some expectedVersion =>
      if rule.version ≠ expectedVersion then throw (conflict expectedVersion rule.version)
      else writeRule id data

/-- What the database answers to an update of a row that is not there. -/
def recordNotFound : String := "Record to update not found."

section Calls
variable (refuses : UpdateData → Option String)

/-- The answer to a query and the table that it leaves. `refuses` is what the database makes of data that it does not take, as an amount
    that is no number or a wallet that does not exist. -/
def exec (w : World) : (q : Query) → Except String (Value q) × World
  | .findFirst id userId => (.ok ((w id).filter fun rule => rule.userId = userId),w)
  | .update id data =>
    match w id with
    | none => (.error recordNotFound,w)
    | some rule =>
      match refuses data with
      | some error => (.error error,w)
      | none => (.ok (rule.update data),Function.update w id (some (rule.update data)))

/-- A call of `updateRule`: the user and the request, without the version. -/
structure Call where
  userId : String
  data : UpdateAlertRuleDto

variable (id : String) (expectedVersion : Int)

def Call.program (call : Call) : Program Query Value (Except String AlertRule) :=
  (updateRule id call.userId { call.data with expectedVersion := some expectedVersion }).run
abbrev System := Interleaving.System World Query Value (Except String AlertRule)

/-- A call begins, or its next query is answered. -/
inductive Move where
  | start (c : Nat) (call : Call)
  | proceed (c : Nat)

def Move.input : Move → Input Call Empty
  | .start c call => .start c call
  | .proceed c => .proceed c .ok

def step (s : System) (move : Move) : Option (Answered Query Value) × System :=
  Interleaving.step (exec refuses) (Call.program id expectedVersion) nofun s move.input

/-- A step of the calls. -/
abbrev Transition := Histories.Transition System Move (Option (Answered Query Value))

/-- In this step a call returns the updated rule. -/
def succeeds (t : Transition) : Bool :=
  match t.input with
  | .start _ _ => false
  | .proceed c =>
    match t.before.returned c, t.after.returned c with
    | none, some (.ok _) => true
    | _, _ => false

/-- In this step the call of a thread throws. -/
def Fails (t : Transition) (c : Nat) (error : String) : Prop :=
  t.input = .proceed c ∧ t.before.returned c = none ∧ t.after.returned c = some (.error error)

/-- The errors of a call, by what it finds: another version than it expects, no rule
    of its user, or a database that does not take its data. -/
def Reported (s : System) (c : Nat) (error : String) : Prop :=
  (∃ rule, s.At c (.findFirst id rule.userId) ∧ s.world id = some rule ∧ rule.version ≠ expectedVersion ∧
    error = conflict expectedVersion rule.version) ∨
  (∃ userId, s.At c (.findFirst id userId) ∧ (∀ rule, s.world id = some rule → rule.userId ≠ userId) ∧ error = notFound) ∨
  ∃ data, s.At c (.update id data) ∧ refuses data = some error

/-- Of the calls one succeeds at most, the version counts the successes, and every
    other step leaves the table; calls that fail say why. -/
def Exclusive (start : World) (rule : AlertRule) (moves : List Move) : Prop :=
  let steps := history (step refuses id expectedVersion) (System.start start) moves
  (steps.filter succeeds).length ≤ 1 ∧
    (∃ last, (run (step refuses id expectedVersion) (System.start start) moves).world id = some last ∧
      last.version = rule.version + (steps.filter succeeds).length) ∧
    (∀ t ∈ steps, succeeds t = false → t.after.world = t.before.world) ∧
    ∀ t ∈ steps, ∀ c error, Fails t c error → Reported refuses id expectedVersion t.before c error

/-- An update is sent that does not find the version which its call has compared. -/
def overtaken (s : System) : Move → Bool
  | .start _ _ => false
  | .proceed c =>
    match s.pending c with
    | some (.update _ _) => (s.world id).map AlertRule.version != some expectedVersion
    | _ => false

def afterFind (call : Call) : Except String (Option AlertRule) → Program Query Value (Except String AlertRule)
  | .error error => .returned (.error error)
  | .ok none => .returned (.error notFound)
  | .ok (some rule) =>
    if rule.version ≠ expectedVersion then .returned (.error (conflict expectedVersion rule.version))
    else .call (.update id call.data.updateData) .returned

theorem program_eq (call : Call) :
    call.program id expectedVersion = .call (.findFirst id call.userId) (afterFind id expectedVersion call) := by
  change Program.call (Query.findFirst id call.userId) _ = _
  congr 1
  funext answer
  rcases answer with error | _ | rule
  · rfl
  · rfl
  · change ((if rule.version ≠ expectedVersion then throw (conflict expectedVersion rule.version)
      else writeRule id { call.data with expectedVersion := some expectedVersion } : Code AlertRule)).run =
      if rule.version ≠ expectedVersion then .returned (.error (conflict expectedVersion rule.version))
      else .call (.update id call.data.updateData) .returned
    by_cases other : rule.version ≠ expectedVersion
    · rw [if_pos other,if_pos other]
      rfl
    · rw [if_neg other,if_neg other]
      rfl

/-- Every thread is about to find the rule, about to write it, or done. -/
inductive Stage : Program Query Value (Except String AlertRule) → Prop
  | fresh (call : Call) : Stage (.call (.findFirst id call.userId) (afterFind id expectedVersion call))
  | checked (data : UpdateData) : Stage (.call (.update id data) .returned)
  | ended (result : Except String AlertRule) : Stage (.returned result)

def Staged (s : System) : Prop := ∀ c t, s.threads c = some t → Stage id expectedVersion t.rest

/-- All that a step can do: nothing that ends a call, an end that leaves the table, or a write. -/
inductive Effect (s : System) (move : Move) (s' : System) : Prop
  | goes (world : s'.world = s.world) (goes : ∀ c, move = .proceed c → s.returned c = none → s'.returned c = none)
  | loses {c : Nat} {error : String} (is : move = .proceed c) (world : s'.world = s.world) (before : s.returned c = none)
      (after : s'.returned c = some (.error error)) (reported : Reported refuses id expectedVersion s c error)
  | wins {c : Nat} {data : UpdateData} {rule : AlertRule} (is : move = .proceed c) (at_ : s.At c (.update id data))
      (stored : s.world id = some rule) (world : s'.world = Function.update s.world id (some (rule.update data)))
      (before : s.returned c = none) (after : s'.returned c = some (.ok (rule.update data)))

end Calls

section Steps
variable {refuses : UpdateData → Option String} {id : String} {expectedVersion : Int} {s : System}

theorem stage_afterFind (call : Call) (answer : Except String (Option AlertRule)) :
    Stage id expectedVersion (afterFind id expectedVersion call answer) := by
  rcases answer with error | _ | rule
  · exact .ended _
  · exact .ended _
  · rw [afterFind]
    split
    · exact .ended _
    · exact .checked _

theorem staged_step (staged : Staged id expectedVersion s) (move : Move) :
    Staged id expectedVersion (step refuses id expectedVersion s move).2 := by
  rcases step_cases (exec refuses) (Call.program id expectedVersion) nofun s move.input with same | ⟨c,call,_,_,moved⟩ |
    ⟨c,outcome,made,q,next,_,standing,moved⟩ | ⟨c,isExit,_⟩ | ⟨o,_⟩
  · rw [step,same]
    exact staged
  · rw [step,moved]
    refine System.put_forall ?_ fun d t _ => staged d t
    rintro t ⟨⟩
    rw [program_eq]
    exact .fresh call
  · rw [step,moved]
    refine System.put_forall ?_ fun d t _ => staged d t
    rintro t ⟨⟩
    cases staged c _ standing with
    | fresh call => exact stage_afterFind call _
    | checked data => exact .ended _
  · cases move <;> cases isExit
  · exact o.elim

theorem step_proceed {c : Nat} {made : List (Answered Query Value)} {q : Query}
    {next : Except String (Value q) → Program Query Value (Except String AlertRule)}
    (running : s.threads c = some ⟨made,.call q next⟩) :
    (step refuses id expectedVersion s (.proceed c)).2 =
      (s.setWorld (exec refuses s.world q).2).put c
        (some ⟨made ++ [⟨q,(exec refuses s.world q).1⟩],next (exec refuses s.world q).1⟩) := by
  simp [step,Move.input,Interleaving.step,running,respond]

theorem returned_put (w : World) (c : Nat) (made : List (Answered Query Value))
    (rest : Program Query Value (Except String AlertRule)) :
    ((s.setWorld w).put c (some ⟨made,rest⟩)).returned c =
      match rest with
      | .returned result => some result
      | .call _ _ => none := by
  cases rest with
  | returned result => simp [System.returned,System.put_threads]
  | call q next => simp [System.returned,System.put_threads]

theorem step_effect (staged : Staged id expectedVersion s) (stored : ∃ rule, s.world id = some rule) (move : Move) :
    Effect refuses id expectedVersion s move (step refuses id expectedVersion s move).2 := by
  obtain ⟨rule,stored⟩ := stored
  cases move with
  | start c call =>
    refine .goes ?_ (fun d is => by cases is)
    rcases step_cases (exec refuses) (Call.program id expectedVersion) nofun s (Move.start c call).input with same |
      ⟨_,_,_,_,moved⟩ | ⟨_,_,_,_,_,isProceed,_⟩ | ⟨_,isExit,_⟩ | ⟨o,_⟩
    · rw [step,same]
    · rw [step,moved]
      rfl
    · cases isProceed
    · cases isExit
    · exact o.elim
  | proceed c =>
    cases running : s.threads c with
    | none =>
      have same : (step refuses id expectedVersion s (.proceed c)).2 = s := by
        simp [step,Move.input,Interleaving.step,running]
      rw [same]
      exact .goes rfl fun d _ before => before
    | some t =>
      obtain ⟨made,rest⟩ := t
      cases staged c _ running with
      | ended result =>
        have same : (step refuses id expectedVersion s (.proceed c)).2 = s := by
          simp [step,Move.input,Interleaving.step,running]
        rw [same]
        exact .goes rfl fun d _ before => before
      | fresh call =>
        have before : s.returned c = none := by simp [System.returned,running]
        have at_ : s.At c (.findFirst id call.userId) := ⟨made,_,running⟩
        rw [step_proceed running]
        by_cases own : rule.userId = call.userId
        · have kept : ((s.world id).filter fun other => other.userId = call.userId) = some rule := by simp [stored,own]
          have found : (exec refuses s.world (.findFirst id call.userId)).1 = .ok (some rule) := congrArg Except.ok kept
          by_cases other : rule.version ≠ expectedVersion
          · refine .loses rfl rfl before ?_ (.inl ⟨rule,own ▸ at_,stored,other,rfl⟩)
            rw [returned_put,found]
            simp [afterFind,other]
          · refine .goes rfl fun d is _ => ?_
            injection is with same
            rw [← same,returned_put,found]
            simp [afterFind,other]
        · have dropped : ((s.world id).filter fun other => other.userId = call.userId) = none := by simp [stored,own]
          have found : (exec refuses s.world (.findFirst id call.userId)).1 = .ok none := congrArg Except.ok dropped
          refine .loses rfl rfl before ?_ (.inr (.inl ⟨call.userId,at_,?_,rfl⟩))
          · rw [returned_put,found]
            rfl
          · intro other is
            rw [stored] at is
            cases is
            exact own
      | checked data =>
        have before : s.returned c = none := by simp [System.returned,running]
        have at_ : s.At c (.update id data) := ⟨made,_,running⟩
        rw [step_proceed running]
        cases refused : refuses data with
        | some error =>
          have answer : exec refuses s.world (.update id data) = (.error error,s.world) := by simp [exec,stored,refused]
          refine .loses rfl ?_ before ?_ (.inr (.inr ⟨data,at_,refused⟩))
          · rw [answer]
            rfl
          · refine (returned_put _ c _ (.returned _)).trans ?_
            rw [answer]
            rfl
        | none =>
          have answer : exec refuses s.world (.update id data) =
              (.ok (rule.update data),Function.update s.world id (some (rule.update data))) := by
            simp [exec,stored,refused]
          refine .wins rfl at_ stored ?_ before ?_
          · rw [answer]
            rfl
          · refine (returned_put _ c _ (.returned _)).trans ?_
            rw [answer]
            rfl

variable {move : Move}

theorem effect_failed {s' : System} {t : Transition} (effect : Effect refuses id expectedVersion s move s')
    (before : t.before = s) (input : t.input = move) (after : t.after = s') {c : Nat} {error : String}
    (fails : Fails t c error) : Reported refuses id expectedVersion s c error := by
  obtain ⟨is,unended,failed⟩ := fails
  rw [before] at unended
  rw [after] at failed
  rw [input] at is
  cases effect with
  | goes _ goes =>
    rw [goes c is unended] at failed
    cases failed
  | @loses d other isMove _ _ ends reported =>
    obtain rfl : c = d := by
      rw [is] at isMove
      injection isMove
    rw [ends] at failed
    cases failed
    exact reported
  | @wins d _ _ isMove _ _ _ _ ends =>
    obtain rfl : c = d := by
      rw [is] at isMove
      injection isMove
    rw [ends] at failed
    cases failed

theorem effect_succeeds {t : Transition} (effect : Effect refuses id expectedVersion s move t.after) (before : t.before = s)
    (input : t.input = move) :
    (succeeds t = false ∧ t.after.world = s.world) ∨
      (succeeds t = true ∧ ∃ c data rule, move = .proceed c ∧ s.At c (.update id data) ∧ s.world id = some rule ∧
        t.after.world = Function.update s.world id (some (rule.update data))) := by
  cases effect with
  | goes world goes =>
    refine .inl ⟨?_,world⟩
    unfold succeeds
    rw [input,before]
    cases move with
    | start c call => rfl
    | proceed c =>
      dsimp only
      cases unended : s.returned c with
      | none => rw [goes c rfl unended]
      | some result => rfl
  | loses is world unended failed _ =>
    refine .inl ⟨?_,world⟩
    unfold succeeds
    rw [input,before,is]
    dsimp only
    rw [unended,failed]
  | wins is at_ stored world unended ended =>
    refine .inr ⟨?_,_,_,_,is,at_,stored,world⟩
    unfold succeeds
    rw [input,before,is]
    dsimp only
    rw [unended,ended]

/-- What holds behind every part of a run whose updates find the version that was compared: the version stands where it began, or one
    call has raised it from the version that all of them expect. -/
structure Sound (refuses : UpdateData → Option String) (id : String) (expectedVersion : Int) (rule : AlertRule)
    (past : List Transition) (s : System) : Prop where
  staged : Staged id expectedVersion s
  version : ∃ last, s.world id = some last ∧ last.version = rule.version + (past.filter succeeds).length
  once : past.filter succeeds = [] ∨ ((past.filter succeeds).length = 1 ∧ rule.version = expectedVersion)
  others : ∀ t ∈ past, succeeds t = false → t.after.world = t.before.world
  failed : ∀ t ∈ past, ∀ c error, Fails t c error → Reported refuses id expectedVersion t.before c error

theorem sound_step {rule : AlertRule} {past : List Transition} (sound : Sound refuses id expectedVersion rule past s)
    (meets : overtaken id expectedVersion s move = false) :
    Sound refuses id expectedVersion rule (past ++ [transition (step refuses id expectedVersion) s move])
      (step refuses id expectedVersion s move).2 := by
  obtain ⟨last,stored,counted⟩ := sound.version
  have effect : Effect refuses id expectedVersion s move (step refuses id expectedVersion s move).2 :=
    step_effect sound.staged ⟨last,stored⟩ move
  have failed : ∀ t ∈ past ++ [transition (step refuses id expectedVersion) s move], ∀ c error, Fails t c error →
      Reported refuses id expectedVersion t.before c error := by
    intro t listed c error fails
    rcases List.mem_append.mp listed with earlier | now
    · exact sound.failed t earlier c error fails
    · obtain rfl := List.mem_singleton.mp now
      exact effect_failed effect rfl rfl rfl fails
  have staged : Staged id expectedVersion (step refuses id expectedVersion s move).2 := staged_step sound.staged move
  rcases effect_succeeds (t := transition (step refuses id expectedVersion) s move) effect rfl rfl with ⟨not,same⟩ |
    ⟨wins,c,data,found,rfl,at_,stored',world⟩
  · have kept : (past ++ [transition (step refuses id expectedVersion) s move]).filter succeeds = past.filter succeeds := by
      simp [List.filter_append,not]
    refine ⟨staged,?_,?_,?_,failed⟩
    · rw [kept]
      exact ⟨last,(congrFun same id).trans stored,counted⟩
    · rw [kept]
      exact sound.once
    · intro t listed unsuccessful
      rcases List.mem_append.mp listed with earlier | now
      · exact sound.others t earlier unsuccessful
      · obtain rfl := List.mem_singleton.mp now
        exact same
  · obtain rfl : last = found := by
      rw [stored] at stored'
      exact Option.some.inj stored'
    have isExpected : last.version = expectedVersion := by
      simpa [overtaken,pending_of_at at_,stored] using meets
    have none : past.filter succeeds = [] := by
      rcases sound.once with none | ⟨one,expected⟩
      · exact none
      · rw [one] at counted
        omega
    have one : (past ++ [transition (step refuses id expectedVersion) s (.proceed c)]).filter succeeds =
        [transition (step refuses id expectedVersion) s (.proceed c)] := by
      simp [List.filter_append,none,wins]
    rw [none] at counted
    refine ⟨staged,?_,?_,?_,failed⟩
    · rw [one]
      refine ⟨last.update data,(congrFun world id).trans (Function.update_self ..),?_⟩
      change last.version + 1 = _
      simpa using counted
    · rw [one]
      simp only [List.length_nil] at counted
      exact .inr ⟨rfl,by omega⟩
    · intro t listed unsuccessful
      rcases List.mem_append.mp listed with earlier | now
      · exact sound.others t earlier unsuccessful
      · obtain rfl := List.mem_singleton.mp now
        rw [wins] at unsuccessful
        cases unsuccessful

theorem sound_run {start : World} {rule : AlertRule} (stored : start id = some rule) (moves : List Move) :
    (∀ t ∈ history (step refuses id expectedVersion) (System.start start) moves,
      overtaken id expectedVersion t.before t.input = false) →
      Sound refuses id expectedVersion rule (history (step refuses id expectedVersion) (System.start start) moves)
        (run (step refuses id expectedVersion) (System.start start) moves) := by
  refine @history_rec _ _ _ (step refuses id expectedVersion) (fun past s =>
    (∀ t ∈ past, overtaken id expectedVersion t.before t.input = false) → Sound refuses id expectedVersion rule past s) _ ?_ ?_ moves
  · intro _
    refine ⟨?_,⟨rule,stored,by simp⟩,.inl rfl,?_,?_⟩
    · intro c t running
      cases running
    · exact fun t listed => absurd listed List.not_mem_nil
    · exact fun t listed => absurd listed List.not_mem_nil
  · intro past s move sound meets
    exact sound_step (sound fun t listed => meets t (List.mem_append_left _ listed))
      (meets (transition (step refuses id expectedVersion) s move) (by simp))

/-- In every interleaving of calls on one rule that expect the same version, where every update that is sent finds that version, one
    call succeeds at most, the version counts the successes, and the others leave the table and report their conflict. -/
theorem one_winner (refuses : UpdateData → Option String) (id : String) (expectedVersion : Int) {start : World}
    {rule : AlertRule} (stored : start id = some rule) (moves : List Move)
    (meets : ∀ t ∈ history (step refuses id expectedVersion) (System.start start) moves,
      overtaken id expectedVersion t.before t.input = false) :
    Exclusive refuses id expectedVersion start rule moves := by
  have sound := sound_run stored moves meets
  refine ⟨?_,sound.version,sound.others,sound.failed⟩
  rcases sound.once with none | ⟨one,_⟩
  · rw [none]
    exact Nat.zero_le 1
  · exact Nat.le_of_eq one

end Steps

section Sample

def sampleRule : AlertRule := ⟨"r1","u1",none,some "large",[],none,none,none,["email"],none,1,true⟩
def sampleRules : World := fun id => if id = "r1" then some sampleRule else none
def rename (name : String) : Call := ⟨"u1",{ name := some (some name) }⟩

/-- One call after the other. -/
def inTurn : List Move :=
  [.start 1 (rename "first"),.proceed 1,.proceed 1,.start 2 (rename "second"),.proceed 2]

/-- Both calls compare the version before either of them writes. -/
def atOnce : List Move :=
  [.start 1 (rename "first"),.start 2 (rename "second"),.proceed 1,.proceed 2,.proceed 1,.proceed 2]

theorem one_winner_inTurn : Exclusive (fun _ => none) "r1" 1 sampleRules sampleRule inTurn :=
  one_winner (fun _ => none) "r1" 1 rfl inTurn (by decide)

/-- Of two calls that compare the version before either of them writes, both succeed. -/
theorem two_winners : ¬ ∀ (refuses : UpdateData → Option String) (id : String) (expectedVersion : Int) (start : World)
    (rule : AlertRule) (moves : List Move), start id = some rule → Exclusive refuses id expectedVersion start rule moves := by
  intro all
  have once := (all (fun _ => none) "r1" 1 sampleRules sampleRule atOnce rfl).1
  exact absurd once (by decide)

end Sample
end StellarAlerts.RuleVersions
