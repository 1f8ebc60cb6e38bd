import StellarAlerts.CursorCodec
import StellarAlerts.CursorPages
import StellarAlerts.Histories
import StellarAlerts.UniqueTables

/-!
The delivery logs of a webhook, page by page, while new ones are written. What a walk
has yielded and what is still behind its cursor make up the logs that were there at its
start (`Inv`): a log that is newer than the cursor is in neither.
-/
namespace StellarAlerts.WebhookLogPages
open CursorCodec CursorPages
open DateTexts (Date toISOString)
open Histories JsonTexts OrderedMaps RowQueries UniqueTables

/-- The columns that the list reads. -/
structure WebhookLog where
  id : String
  webhookId : String
  createdAt : Date
deriving DecidableEq

structure Webhook where
  id : String
  userId : String
deriving DecidableEq

abbrev Logs := Table WebhookLog fun a b => a.id == b.id
abbrev Webhooks := Table Webhook fun a b => a.id == b.id

inductive Failure where
  | webhookNotFound
  | cursor (e : CursorError)
deriving DecidableEq, Repr

def position (log : WebhookLog) : Position := ⟨log.createdAt,log.id⟩
def encodeCursor (log : WebhookLog) : String := encodePosition "createdAt" (position log)

section List
variable (db : Database) (r : Runtime)

def decodeCursor (cursor : String) : Except CursorError CursorPayload := decodePayload r "createdAt" cursor

/-- The condition of the fragment's `OR`. -/
def buildCursorWhere (cursor : String) : Except CursorError (WebhookLog → Bool) := do
  let c ← decodePosition r "createdAt" cursor
  pure fun log => olderThan db c (position log)

def buildCursorPage (rows : List WebhookLog) (limit : Nat) : Page WebhookLog String := pageOf encodeCursor rows limit

/-- `CURSOR_ORDER_BY`. -/
def place (log : WebhookLog) : (ℤ ×ₗ List ℕ)ᵒᵈ := newestFirst db (position log)

def getWebhookLogs (webhooks : Webhooks) (webhookId userId : String) (limit : Nat) (cursor : Option String) (logs : Logs) :
    Except Failure (Page WebhookLog String) := do
  if webhooks.rows.any fun webhook => webhook.id = webhookId && webhook.userId = userId then
    let w : Where WebhookLog := OrderedMap.empty.set "webhookId" fun log => decide (log.webhookId = webhookId)
    let w ← match given cursor with
      | some cursor => match buildCursorWhere db r cursor with
        | .ok earlier => pure (w.set "OR" earlier)
        | .error e => throw (.cursor e)
      | none => pure w
    pure (buildCursorPage (findMany (place db) w (limit + 1) logs.rows) limit)
  else throw .webhookNotFound

end List

inductive Stage where
  | first
  | next (cursor : String)
  | finished
  | failed (e : Failure)
deriving DecidableEq, Repr

structure Walk where
  logs : Logs
  yielded : List WebhookLog
  stage : Stage

inductive Input where
  | request
  | insert (log : WebhookLog)

section Machine
variable (db : Database) (r : Runtime) (webhooks : Webhooks)

def newerThan (log : WebhookLog) : Except CursorError Position → Bool
  | .ok c => newestFirst db (position log) < newestFirst db c
  | .error _ => false

/-- A log that is written while the walk waits is newer than its cursor. -/
def admitted (log : WebhookLog) : Stage → Bool
  | .next cursor => newerThan db log (decodePosition r "createdAt" cursor)
  | _ => false

def turn (w : Walk) : Except Failure (Page WebhookLog String) → Walk
  | .error e => { w with stage := .failed e }
  | .ok page =>
    { w with
      yielded := w.yielded ++ page.items
      stage := match page.nextCursor with
        | some cursor => .next cursor
        | none => .finished }

variable (webhook : Webhook) (limit : Nat)

def step (w : Walk) : Input → Unit × Walk
  | .request => ((),match w.stage with
    | .first => turn w (getWebhookLogs db r webhooks webhook.id webhook.userId limit none w.logs)
    | .next cursor => turn w (getWebhookLogs db r webhooks webhook.id webhook.userId limit (some cursor) w.logs)
    | _ => w)
  | .insert log => ((),if admitted db r log w.stage then { w with logs := (w.logs.insert log).getD w.logs } else w)

def start (logs : Logs) : Walk := ⟨logs,[],.first⟩
def listed (logs : Logs) : List WebhookLog :=
  (ordered (place db) logs.rows).filter fun log => log.webhookId = webhook.id

def requests (inputs : List Input) : Nat := inputs.countP fun i => match i with
  | .request => true
  | .insert _ => false

end Machine

section Serving
variable {db : Database} {r : Runtime} {webhooks : Webhooks} {webhook : Webhook} {limit : Nat}

theorem logs_apart (db : Database) (logs : Logs) : Apart (place db) logs.rows :=
  apart_of_unique logs.unique fun _ _ => newestFirst_inj

variable {logs : Logs}

theorem mem_listed {log : WebhookLog} : log ∈ listed db webhook logs ↔ log ∈ logs.rows ∧ log.webhookId = webhook.id := by
  simp [listed,mem_ordered]
theorem listed_sorted (logs : Logs) : (listed db webhook logs).Pairwise fun a b => place db a < place db b :=
  (ordered_apart (logs_apart db logs)).filter _

theorem owned_found (listed : webhook ∈ webhooks.rows) :
    (webhooks.rows.any fun row => row.id = webhook.id && row.userId = webhook.userId) = true :=
  List.any_eq_true.mpr ⟨webhook,listed,by simp⟩

theorem getWebhookLogs_first (owned : webhook ∈ webhooks.rows) (logs : Logs) :
    getWebhookLogs db r webhooks webhook.id webhook.userId limit none logs =
      .ok (pageOf encodeCursor ((listed db webhook logs).take (limit + 1)) limit) := by
  have conditions : selects (OrderedMap.empty.set "webhookId" fun log : WebhookLog => decide (log.webhookId = webhook.id)) =
      fun log => decide (log.webhookId = webhook.id) := by
    funext log
    rw [selects_set_new (get_empty _),selects_empty,Bool.true_and]
  rw [listed,← ordered_filter (logs_apart db logs),← conditions]
  simp only [getWebhookLogs,owned_found owned]
  rfl

theorem getWebhookLogs_next (owned : webhook ∈ webhooks.rows) (logs : Logs) (last : WebhookLog) :
    getWebhookLogs db r webhooks webhook.id webhook.userId limit (some (encodeCursor last)) logs =
      .ok (pageOf encodeCursor (((listed db webhook logs).filter fun log => place db last < place db log).take (limit + 1)) limit) := by
  have isGiven : given (some (encodeCursor last)) = some (encodeCursor last) :=
    @given_encode "createdAt" (by decide) (position last)
  have decoded : buildCursorWhere db r (encodeCursor last) = .ok fun log => olderThan db (position last) (position log) := by
    have position_ : decodePosition r "createdAt" (encodeCursor last) = .ok (position last) :=
      decodePosition_encode (by decide) (position last)
    rw [buildCursorWhere,position_]
    rfl
  have conditions : selects ((OrderedMap.empty.set "webhookId" fun log : WebhookLog =>
      decide (log.webhookId = webhook.id)).set "OR" fun log => olderThan db (position last) (position log)) =
      fun log => decide (place db last < place db log) && decide (log.webhookId = webhook.id) := by
    funext log
    rw [selects_set_new (by simp [get_set]),selects_set_new (get_empty _),selects_empty,Bool.true_and,olderThan_eq,
      Bool.and_comm]
    rfl
  rw [listed,List.filter_filter,← conditions,← ordered_filter (logs_apart db logs)]
  simp only [getWebhookLogs,owned_found owned,isGiven,decoded]
  rfl

/-- What is yielded and what is behind the cursor make up the first logs. -/
inductive Inv (db : Database) (webhook : Webhook) (limit : Nat) (initial : Logs) : Nat → Walk → Prop where
  | first : Inv db webhook limit initial 0 (start initial)
  | next {n : Nat} {logs : Logs} {front rest : List WebhookLog} {last : WebhookLog}
      (split : listed db webhook initial = front ++ last :: rest) (count : front.length + 1 = n * limit) (more : rest ≠ [])
      (behind : (listed db webhook logs).filter (fun log => place db last < place db log) = rest) :
      Inv db webhook limit initial n ⟨logs,front ++ [last],.next (encodeCursor last)⟩
  | finished {n : Nat} {logs : Logs} (some_ : 0 < n) (enough : (listed db webhook initial).length ≤ n * limit) :
      Inv db webhook limit initial n ⟨logs,listed db webhook initial,.finished⟩

variable {n : Nat}

theorem turn_inv (positive : 0 < limit) {initial : Logs} {yielded left : List WebhookLog} {stage : Stage}
    (split : listed db webhook initial = yielded ++ left) (count : yielded.length = n * limit)
    (serves : ∀ before last behind, left = before ++ last :: behind →
      (listed db webhook logs).filter (fun log => place db last < place db log) = behind) :
    Inv db webhook limit initial (n + 1)
      (turn ⟨logs,yielded,stage⟩ (.ok (pageOf encodeCursor (left.take (limit + 1)) limit))) := by
  have counts : (n + 1) * limit = n * limit + limit := Nat.succ_mul n limit
  rcases @pageOf_cases _ _ encodeCursor limit positive left with ⟨fits,page⟩ | ⟨first,last,behind,leftIs,length,more,page⟩
  · rw [page]
    simp only [turn]
    rw [← split]
    refine .finished (Nat.succ_pos n) ?_
    rw [split,List.length_append]
    omega
  · rw [page]
    simp only [turn]
    rw [← List.append_assoc]
    refine .next ?_ ?_ more (serves first last behind leftIs)
    · rw [split,leftIs,List.append_assoc]
    · rw [List.length_append]
      omega

variable {w : Walk}

theorem request_inv (positive : 0 < limit) (owned : webhook ∈ webhooks.rows) {initial : Logs}
    (inv : Inv db webhook limit initial n w) :
    Inv db webhook limit initial (n + 1) (step db r webhooks webhook limit w .request).2 := by
  cases inv with
  | first =>
    simp only [step,start,getWebhookLogs_first owned]
    refine turn_inv positive (List.nil_append _).symm (by simp) fun before last behind leftIs => ?_
    rw [leftIs]
    exact filter_behind (leftIs ▸ listed_sorted initial)
  | @next _ logs front rest last split count more behind =>
    simp only [step,getWebhookLogs_next owned,behind]
    refine turn_inv positive (by rw [split]; simp) (by simpa using count) fun before later others leftIs => ?_
    -- what is behind a later row is behind the cursor
    have sorted : (front ++ last :: rest).Pairwise fun a b => place db a < place db b := split ▸ listed_sorted initial
    obtain ⟨_,tail,_⟩ := List.pairwise_append.mp sorted
    obtain ⟨above,tail⟩ := List.pairwise_cons.mp tail
    have laterBehind : place db last < place db later := above later (by simp [leftIs])
    rw [leftIs] at tail behind
    rw [← filter_behind tail,← behind,List.filter_filter]
    refine List.filter_congr fun log _ => ?_
    rw [Bool.eq_iff_iff]
    simp only [Bool.and_eq_true,decide_eq_true_eq]
    exact ⟨fun lower => ⟨lower,laterBehind.trans lower⟩,And.left⟩
  | finished some_ enough =>
    refine .finished (Nat.succ_pos n) (enough.trans ?_)
    exact Nat.mul_le_mul_right limit (Nat.le_succ n)

theorem listed_insert {logs' : Logs} {log last : WebhookLog} (inserted : logs.insert log = some logs')
    (newer : place db log < place db last) :
    (listed db webhook logs').filter (fun other => place db last < place db other) =
      (listed db webhook logs).filter fun other => place db last < place db other := by
  have rows : logs'.rows = logs.rows ++ [log] := insert_rows inserted
  have above : ¬place db last < place db log := newer.asymm
  rw [listed,listed,List.filter_filter,List.filter_filter,← ordered_filter (logs_apart db logs),
    ← ordered_filter (logs_apart db logs'),rows,List.filter_append]
  simp [above]

theorem admitted_next (log last : WebhookLog) :
    admitted db r log (.next (encodeCursor last)) = decide (place db log < place db last) := by
  have decoded : decodePosition r "createdAt" (encodeCursor last) = .ok (position last) :=
    decodePosition_encode (by decide) (position last)
  have unfolded : ∀ cursor, admitted db r log (.next cursor) = newerThan db log (decodePosition r "createdAt" cursor) :=
    fun _ => rfl
  rw [unfolded,decoded]
  rfl

theorem insert_inv {initial : Logs} (inv : Inv db webhook limit initial n w) (log : WebhookLog) :
    Inv db webhook limit initial n (step db r webhooks webhook limit w (.insert log)).2 := by
  cases inv with
  | first => exact .first
  | @next _ logs front rest last split count more behind =>
    have waits : admitted db r log (.next (encodeCursor last)) = decide (place db log < place db last) :=
      admitted_next log last
    by_cases newer : place db log < place db last
    · rw [decide_eq_true newer] at waits
      simp only [step,waits,if_true]
      cases inserted : logs.insert log with
      | none => exact .next split count more behind
      | some logs' => exact .next split count more ((listed_insert inserted newer).trans behind)
    · rw [decide_eq_false newer] at waits
      simp only [step,waits]
      exact .next split count more behind
  | finished some_ enough => exact .finished some_ enough

theorem run_walk (positive : 0 < limit) (owned : webhook ∈ webhooks.rows) {initial : Logs} (inputs : List Input) {n : Nat}
    {w : Walk} (inv : Inv db webhook limit initial n w) :
    Inv db webhook limit initial (n + requests inputs) (run (step db r webhooks webhook limit) w inputs) := by
  induction inputs generalizing n w with
  | nil => exact inv
  | cons i rest ih =>
    cases i with
    | request =>
      have count : n + requests (.request :: rest) = n + 1 + requests rest := by
        simp only [requests,List.countP_cons]
        simp
        omega
      rw [run_cons,count]
      exact ih (request_inv positive owned inv)
    | insert log =>
      have count : n + requests (.insert log :: rest) = n + requests rest := by
        simp [requests]
      rw [run_cons,count]
      exact ih (insert_inv inv log)

theorem run_start (positive : 0 < limit) (owned : webhook ∈ webhooks.rows) (initial : Logs) (inputs : List Input) :
    Inv db webhook limit initial (requests inputs) (run (step db r webhooks webhook limit) (start initial) inputs) := by
  have inv := @run_walk db r webhooks webhook limit positive owned initial inputs 0 _ .first
  rwa [Nat.zero_add] at inv

theorem yielded_of_inv {initial : Logs} (inv : Inv db webhook limit initial n w) :
    (w.stage = .finished ∧ w.yielded = listed db webhook initial) ∨
      ((n = 0 ∨ n * limit < (listed db webhook initial).length) ∧ (∀ e, w.stage ≠ .failed e) ∧
        w.yielded = (listed db webhook initial).take (n * limit)) := by
  cases inv with
  | first => exact .inr ⟨.inl rfl,nofun,by simp [start]⟩
  | @next _ logs front rest last split count more behind =>
    have some_ := List.length_pos_iff.mpr more
    have cut : listed db webhook initial = (front ++ [last]) ++ rest := by
      rw [split]
      simp
    refine .inr ⟨.inr ?_,nofun,?_⟩
    · rw [split,List.length_append,List.length_cons]
      omega
    · rw [cut]
      exact (List.take_left' (by simpa using count)).symm
  | finished some_ enough => exact .inl ⟨rfl,rfl⟩

theorem decodeCursor_encodeCursor (log : WebhookLog) :
    decodeCursor r (encodeCursor log) = .ok ⟨toISOString log.createdAt,log.id⟩ :=
  decode_encode (by decide) (position log)

/-- No object with a time that can be read and an id. -/
def Malformed (r : Runtime) (cursor : String) : Prop :=
  ∀ members, r.parseCursor cursor = some (.object members) → ∀ time, lookup members "createdAt" = some (.string time) →
    ∀ id, lookup members "id" = some (.string id) → r.parseDate time = none

theorem malformed_iff {cursor : String} : Malformed r cursor ↔ ∀ c, decodeCursor r cursor ≠ .ok c := by
  constructor
  · intro malformed c decoded
    obtain ⟨members,parsed,time,id,valid⟩ := decode_eq_ok_iff.mp decoded
    rw [malformed members parsed c.time time c.id id] at valid
    cases valid
  · intro rejected members parsed time timeIs id idIs
    rw [← Option.not_isSome_iff_eq_none]
    intro valid
    exact rejected ⟨time,id⟩ (decode_eq_ok_iff.mpr ⟨members,parsed,timeIs,idIs,valid⟩)

theorem decodeCursor_cases (cursor : String) :
    (¬Malformed r cursor ∧ ∃ c, decodeCursor r cursor = .ok c) ∨
      (Malformed r cursor ∧ decodeCursor r cursor = .error .invalid ∧ buildCursorWhere db r cursor = .error .invalid) := by
  cases decoded : decodeCursor r cursor with
  | ok c => exact .inl ⟨fun malformed => malformed_iff.mp malformed c decoded,c,rfl⟩
  | error e =>
    obtain rfl := decode_error decoded
    have fails : decodePosition r "createdAt" cursor = .error .invalid := decodePosition_error decoded
    refine .inr ⟨malformed_iff.mpr fun c accepted => ?_,rfl,?_⟩
    · rw [decoded] at accepted
      cases accepted
    · rw [buildCursorWhere,fails]
      rfl

/-- Among insertions of newer logs a walk yields the logs that were there, in their order and each once; cursors read back as what they
    were made of, and all others are rejected with a `CursorError`. -/
theorem run_pages (db : Database) (r : Runtime) (webhooks : Webhooks) (webhook : {row // row ∈ webhooks.rows})
    (limit : PageLimit) (initial : Logs) :
    ((listed db webhook initial).Pairwise (fun a b => newestFirst db (position a) < newestFirst db (position b)) ∧
      (∀ log, log ∈ listed db webhook initial ↔ log ∈ initial.rows ∧ log.webhookId = webhook.val.id) ∧
      ∀ inputs, ((run (step db r webhooks webhook limit) (start initial) inputs).stage = .finished ∧
          (run (step db r webhooks webhook limit) (start initial) inputs).yielded = listed db webhook initial) ∨
        ((requests inputs = 0 ∨ requests inputs * limit < (listed db webhook initial).length) ∧
          (∀ e, (run (step db r webhooks webhook limit) (start initial) inputs).stage ≠ .failed e) ∧
          (run (step db r webhooks webhook limit) (start initial) inputs).yielded =
            (listed db webhook initial).take (requests inputs * limit))) ∧
    (∀ log, decodeCursor r (encodeCursor log) = .ok ⟨toISOString log.createdAt,log.id⟩ ∧
      r.parseDate (toISOString log.createdAt) = some log.createdAt) ∧
    ∀ cursor, (¬Malformed r cursor ∧ ∃ c, decodeCursor r cursor = .ok c) ∨
      (Malformed r cursor ∧ decodeCursor r cursor = .error .invalid ∧ buildCursorWhere db r cursor = .error .invalid) :=
  ⟨⟨listed_sorted initial,fun _ => mem_listed,fun inputs =>
      yielded_of_inv (run_start limit.property webhook.property initial inputs)⟩,
    fun log => ⟨decodeCursor_encodeCursor log,parseDate_toISOString log.createdAt⟩,decodeCursor_cases⟩

end Serving
/-- The text of an empty object is malformed, and decoding it throws. -/
theorem empty_object_throws : Malformed bareRuntime "e30" ∧ decodeCursor bareRuntime "e30" = .error .invalid := by
  have text : "e30" = ByteTexts.toBase64url (Sha256.utf8 "\x7b\x7d") := by decide
  have parsed : bareRuntime.parseCursor "e30" = some (.object []) := by
    rw [Runtime.parseCursor,text,ByteTexts.fromBase64url_toBase64url,ByteTexts.utf8Text_utf8]
    rfl
  have rejected : decodeCursor bareRuntime "e30" = .error .invalid := by
    rw [decodeCursor,decodePayload,parsed]
    rfl
  refine ⟨malformed_iff.mpr fun c accepted => ?_,rejected⟩
  rw [rejected] at accepted
  cases accepted

end StellarAlerts.WebhookLogPages
