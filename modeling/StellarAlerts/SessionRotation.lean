import StellarAlerts.SessionManager
import StellarAlerts.UniqueTables

/-!
Refresh tokens under calls that interleave. In the runs whose transactions find their
token unconsumed it is exchanged once; in every run, a call that presents an exchanged
token leaves its family revoked (`tokens_single_use`).
-/
namespace StellarAlerts.SessionManager
open Histories Interleaving RemoteCalls
open UniqueTables (find_map)

/-- The history says that the token was used. -/
def Consumed (jti : String) (w : World) : Prop := ∃ row, w.token jti = some row ∧ row.isConsumed = true

def Opened (familyId : String) (w : World) : Prop := ∃ session, w.session familyId = some session
def Revoked (familyId : String) (w : World) : Prop := ∃ session, w.session familyId = some session ∧ session.isRevoked = true

section Rows
variable {w : World} {jti familyId : String}

theorem session_map {f : RefreshSession → RefreshSession} (kept : ∀ row, (f row).familyId = row.familyId) (familyId : String)
    (rows : List RefreshSession) :
    (rows.map f).find? (fun row => row.familyId == familyId) = (rows.find? fun row => row.familyId == familyId).map f :=
  find_map (fun row => by rw [kept row]) rows

theorem consume_jti (row : RefreshTokenHistory) : (row.consume jti).jti = row.jti := by
  unfold RefreshTokenHistory.consume
  split <;> rfl

theorem consume_isConsumed {row : RefreshTokenHistory} (used : row.isConsumed = true) : (row.consume jti).isConsumed = true := by
  unfold RefreshTokenHistory.consume
  split
  next => rfl
  next => exact used

theorem advance_kept (rotation : Rotation) (row : RefreshSession) :
    (row.advance rotation).familyId = row.familyId ∧ (row.advance rotation).isRevoked = row.isRevoked := by
  unfold RefreshSession.advance
  split <;> exact ⟨rfl,rfl⟩

theorem revoke_familyId (reason : String) (row : RefreshSession) : (row.revoke familyId reason).familyId = row.familyId := by
  unfold RefreshSession.revoke
  split <;> rfl

theorem revoke_isRevoked {row : RefreshSession} (revoked : row.isRevoked = true) (reason : String) :
    (row.revoke familyId reason).isRevoked = true := by
  unfold RefreshSession.revoke
  split
  next => rfl
  next => exact revoked

theorem exchanged_token (w : World) (rotation : Rotation) (jti : String) {row : RefreshTokenHistory}
    (found : w.token jti = some row) : (w.exchanged rotation).token jti = some (row.consume rotation.jti) := by
  rw [World.token,World.exchanged,List.find?_append,find_map (fun other => by rw [consume_jti])]
  rw [World.token] at found
  rw [found]
  rfl

theorem exchanged_session (w : World) (rotation : Rotation) (familyId : String) :
    (w.exchanged rotation).session familyId = (w.session familyId).map (RefreshSession.advance rotation) :=
  session_map (fun row => (advance_kept rotation row).1) familyId _

theorem exec_consumed (q : Query) (consumed : Consumed jti w) : Consumed jti (exec w q).2 := by
  obtain ⟨row,found,used⟩ := consumed
  cases q with
  | exchange rotation =>
    simp only [exec]
    split_ifs
    · exact ⟨row,found,used⟩
    · exact ⟨row,found,used⟩
    · exact ⟨_,exchanged_token w rotation jti found,consume_isConsumed used⟩
  | openFamily family userId newJti =>
    simp only [exec]
    split_ifs
    · exact ⟨row,found,used⟩
    · refine ⟨row,?_,used⟩
      rw [World.token] at found
      rw [World.token,World.opened,List.find?_append,found]
      rfl
  | redisGet _ | redisSet _ _ | findSession _ | findToken _ | findUser _ | updateManySession _ _ | createAuditLog _ =>
    exact ⟨row,found,used⟩

theorem exec_session (q : Query) {session : RefreshSession} (found : w.session familyId = some session) :
    ∃ session', (exec w q).2.session familyId = some session' ∧
      (session.isRevoked = true → session'.isRevoked = true) := by
  cases q with
  | exchange rotation =>
    simp only [exec]
    split_ifs
    · exact ⟨session,found,id⟩
    · exact ⟨session,found,id⟩
    · refine ⟨session.advance rotation,by rw [exchanged_session,found]; rfl,?_⟩
      rw [(advance_kept rotation session).2]
      exact id
  | openFamily family userId newJti =>
    simp only [exec]
    split_ifs
    · exact ⟨session,found,id⟩
    · refine ⟨session,?_,id⟩
      rw [World.session] at found
      rw [World.session,World.opened,List.find?_append,found]
      rfl
  | updateManySession family reason =>
    refine ⟨session.revoke family reason,?_,fun revoked => revoke_isRevoked revoked reason⟩
    have mapped := session_map (fun row => @revoke_familyId family reason row) familyId w.refreshSession
    rw [World.session] at found
    rw [World.session,exec,mapped,found]
    rfl
  | redisGet _ | redisSet _ _ | findSession _ | findToken _ | findUser _ | createAuditLog _ => exact ⟨session,found,id⟩

theorem exec_opened (q : Query) (opened : Opened familyId w) : Opened familyId (exec w q).2 := by
  obtain ⟨session,found⟩ := opened
  obtain ⟨session',found',_⟩ := exec_session q found
  exact ⟨session',found'⟩

theorem exec_revoked (q : Query) (revoked : Revoked familyId w) : Revoked familyId (exec w q).2 := by
  obtain ⟨session,found,flag⟩ := revoked
  obtain ⟨session',found',kept⟩ := exec_session q found
  exact ⟨session',found',kept flag⟩

theorem updateMany_revoked (opened : Opened familyId w) (reason : String) :
    Revoked familyId (exec w (.updateManySession familyId reason)).2 := by
  obtain ⟨session,found⟩ := opened
  have named : session.familyId = familyId := by simpa using List.find?_some found
  have mapped := session_map (fun row => @revoke_familyId familyId reason row) familyId w.refreshSession
  rw [World.session] at found
  refine ⟨session.revoke familyId reason,by rw [World.session,exec,mapped,found]; rfl,?_⟩
  rw [RefreshSession.revoke,if_pos named]

theorem exchange_ok {rotation : Rotation} (done : (exec w (.exchange rotation)).1 = .ok ()) :
    Consumed rotation.jti (exec w (.exchange rotation)).2 := by
  simp only [exec] at done ⊢
  split_ifs at done ⊢ with missing taken
  simp only [Bool.or_eq_true,not_or,Option.isNone_iff_eq_none] at missing
  obtain ⟨row,found⟩ := Option.ne_none_iff_exists'.mp missing.1
  refine ⟨_,exchanged_token w rotation rotation.jti found,?_⟩
  have named : row.jti = rotation.jti := by simpa using List.find?_some found
  rw [RefreshTokenHistory.consume,if_pos named]

end Rows

variable {jti : String}

theorem outside_consumed (o : Outside) {w : World} (consumed : Consumed jti w) : Consumed jti (o.apply w) := by
  cases o <;> exact consumed
theorem outside_session (o : Outside) (w : World) (familyId : String) : (o.apply w).session familyId = w.session familyId := by
  cases o <;> rfl

variable {s : System}

theorem step_consumed (consumed : Consumed jti s.world) (i : Input Task Outside) : Consumed jti (step s i).2.world :=
  step_world exec Task.program Outside.apply (fun _ q => exec_consumed q) (fun o _ => outside_consumed o) consumed i

theorem outside_revoked {familyId : String} (o : Outside) (w : World) (revoked : Revoked familyId w) : Revoked familyId (o.apply w) := by
  obtain ⟨session,found,flag⟩ := revoked
  exact ⟨session,by rw [outside_session,found],flag⟩

theorem step_revoked {familyId : String} (revoked : Revoked familyId s.world) (i : Input Task Outside) : Revoked familyId (step s i).2.world :=
  step_world exec Task.program Outside.apply (fun _ q => exec_revoked q) outside_revoked revoked i

/-! ### One exchange of a token -/

/-- The step was the transaction of a rotation of the token, and it was answered. -/
def Exchanges (jti : String) (t : Transition System (Input Task Outside) (Option (Answered Query Value))) : Prop :=
  ∃ rotation, rotation.jti = jti ∧ t.answer = some ⟨.exchange rotation,.ok ()⟩

/-- A transaction that is carried out finds its token unconsumed. -/
def Unconsumed (s : System) : Input Task Outside → Prop
  | .proceed c outcome =>
    outcome.applied = true → ∀ rotation, s.pending c = some (.exchange rotation) → ¬ Consumed rotation.jti s.world
  | _ => True

/-- The same as a check of the state. -/
def findsUnconsumed (s : System) : Input Task Outside → Bool
  | .proceed c _ =>
    match s.pending c with
    | some (.exchange rotation) => (s.world.token rotation.jti).map RefreshTokenHistory.isConsumed != some true
    | _ => true
  | _ => true

variable {i : Input Task Outside}

theorem unconsumed_of_check (checked : findsUnconsumed s i = true) : Unconsumed s i := by
  cases i with
  | proceed c outcome =>
    rintro _ rotation pending ⟨row,found,used⟩
    simp [findsUnconsumed,pending,found,used] at checked
  | start _ _ | exit _ | outside _ => trivial

theorem exchanges_cases (exchanges : Exchanges jti (transition step s i)) :
    ∃ c rotation, i = .proceed c .ok ∧ rotation.jti = jti ∧ s.pending c = some (.exchange rotation) ∧
      Consumed jti (step s i).2.world := by
  obtain ⟨rotation,jtiIs,answered⟩ := exchanges
  simp only [transition] at answered
  rcases step_cases exec Task.program Outside.apply s i with same | ⟨c,task,rfl,_,moved⟩ |
    ⟨c,outcome,made,q,next,rfl,standing,moved⟩ | ⟨c,rfl,moved⟩ | ⟨o,rfl,moved⟩
  · rw [step,same] at answered
    cases answered
  · rw [step,moved] at answered
    cases answered
  · rw [step,moved] at answered ⊢
    have call : q = .exchange rotation := by
      injection answered with pair
      exact congrArg Sigma.fst pair
    subst call
    have ok : (respond exec s.world (.exchange rotation) outcome).1 = .ok () := by
      injection answered with pair
      exact eq_of_heq (Sigma.mk.inj pair).2
    cases outcome with
    | failed message => cases ok
    | lost message => cases ok
    | ok => exact ⟨c,rotation,rfl,jtiIs,pending_of_at ⟨made,next,standing⟩,jtiIs ▸ exchange_ok ok⟩
  · rw [step,moved] at answered
    cases answered
  · rw [step,moved] at answered
    cases answered

variable {inputs : List (Input Task Outside)}

theorem run_consumed {t : Transition System (Input Task Outside) (Option (Answered Query Value))}
    (listed : t ∈ history step s inputs) (exchanges : Exchanges jti t) : Consumed jti (run step s inputs).world := by
  obtain ⟨earlier,later,split⟩ := List.append_of_mem listed
  obtain ⟨before,i,after,rfl,_,rfl,_⟩ := history_split split
  obtain ⟨_,_,_,_,_,consumed⟩ := exchanges_cases exchanges
  rw [run_append,run_cons]
  exact @run_inv System _ _ step (fun s => Consumed jti s.world) (fun _ i consumed => step_consumed consumed i) _ consumed after

theorem exchanged_once (unconsumed : ∀ t ∈ history step s inputs, Unconsumed t.before t.input) :
    (history step s inputs).Pairwise fun t u => ∀ jti, Exchanges jti t → ¬ Exchanges jti u := by
  have kept : (history step s inputs).Pairwise fun t u => ∀ jti, Consumed jti t.after.world → Consumed jti u.before.world :=
    @history_pairwise System _ _ step (fun _ => True) (fun s s' => ∀ jti, Consumed jti s.world → Consumed jti s'.world)
      (fun _ _ => id) (fun first second jti => second jti ∘ first jti) (fun _ _ _ => trivial)
      (fun _ i _ _ consumed => step_consumed consumed i) s trivial inputs
  refine kept.imp_of_mem ?_
  intro t u first second carried jti exchanges exchanges'
  obtain ⟨past,i,rfl⟩ := mem_history first
  obtain ⟨past',i',rfl⟩ := mem_history second
  obtain ⟨_,_,_,_,_,consumed⟩ := exchanges_cases exchanges
  obtain ⟨c,rotation,inputIs,jtiIs,pending,_⟩ := exchanges_cases exchanges'
  have fresh := unconsumed _ second
  simp only [transition] at fresh
  rw [inputIs] at fresh
  exact fresh rfl rotation pending (jtiIs ▸ carried jti consumed)

section Rules
variable {Place : Type} {allowed : Place → Query → Prop} {after : Place → (q : Query) → Except String (Value q) → Place}
  {place : Place}

theorem isFamilyRevoked_rule {post : Except String Bool → Place → Prop} {familyId : String}
    (empty : familyId = "" → post (.ok false) place)
    (get : allowed place (.redisGet (.revoked familyId)))
    (cached : post (.ok true) (after place (.redisGet (.revoked familyId)) (.ok (some "1"))))
    (other : ∀ answer, answer ≠ .ok (some "1") → after place (.redisGet (.revoked familyId)) answer = place)
    (find : allowed place (.findSession familyId))
    (found : ∀ answer, post (answer.map fun session => (session.map RefreshSession.isRevoked).getD false)
      (after place (.findSession familyId) answer)) :
    Follows allowed after post place (isFamilyRevoked familyId).run := by
  unfold isFamilyRevoked
  by_cases none_ : familyId = ""
  · rw [if_pos none_]
    exact empty none_
  rw [if_neg none_]
  have goOn : Follows allowed after post place (do
      let session ← ask (.findSession familyId)
      return (session.map RefreshSession.isRevoked).getD false : Code Bool).run := by
    refine follows_bindCode.mpr ⟨find,fun answer => ?_⟩
    have ended := found answer
    cases answer with
    | error e => exact ended
    | ok session => exact ended
  refine follows_bindCode.mpr (follows_tryCatch.mpr ⟨get,fun answer => ?_⟩)
  by_cases isCached : answer = .ok (some "1")
  · subst isCached
    exact cached
  · have stays := other answer isCached
    rw [stays]
    cases answer with
    | error e => exact goOn
    | ok value =>
      have differs : value ≠ some "1" := fun same => isCached (by rw [same])
      show Follows allowed after post place (if value = some "1" then _ else _ : Code Bool).run
      rw [if_neg differs]
      exact goOn

theorem revokeFamily_rule {post : Except String Unit → Place → Prop} {familyId reason : String}
    (update : allowed place (.updateManySession familyId reason))
    (failed : ∀ e, post (.error e) (after place (.updateManySession familyId reason) (.error e)))
    (set : allowed (after place (.updateManySession familyId reason) (.ok ())) (.redisSet (.revoked familyId) "1"))
    (done : ∀ answer, post (.ok ()) (after (after place (.updateManySession familyId reason) (.ok ()))
      (.redisSet (.revoked familyId) "1") answer)) :
    Follows allowed after post place (revokeFamily familyId reason).run := by
  exact follows_asked update (fun e => failed e) fun _ => follows_caught.mpr ⟨set,done⟩

variable {post : Except String SessionTokenResult → Place → Prop} {newJti : String}

theorem judgeToken_rule {decoded : RefreshTokenPayload} {session : RefreshSession}
    (find : allowed place (.findToken decoded.jti))
    (failed : ∀ e, post (.error e) (after place (.findToken decoded.jti) (.error e)))
    (reused : ∀ record isAlreadyConsumed,
      Follows allowed after post (after place (.findToken decoded.jti) (.ok record))
        (refuseReuse decoded session isAlreadyConsumed (session.currentJti != decoded.jti)).run)
    (valid : ∀ record : Option RefreshTokenHistory, (record.map RefreshTokenHistory.isConsumed).getD false = false →
      Follows allowed after post (after place (.findToken decoded.jti) (.ok record)) (rotateValid decoded session newJti).run) :
    Follows allowed after post place (judgeToken decoded session newJti).run := by
  refine follows_asked find (fun e => failed e) fun record => ?_
  show Follows allowed after post _ (if _ then _ else _ : Code SessionTokenResult).run
  split
  next => exact reused record _
  next fresh =>
    simp only [Bool.or_eq_true,not_or,Bool.not_eq_true] at fresh
    exact valid record fresh.1

theorem judgeSession_rule {decoded : RefreshTokenPayload} {session : Option RefreshSession}
    (dead : (session.map RefreshSession.isRevoked).getD true = true → post (.error SESSION_REVOKED) place)
    (alive : ∀ row, session = some row → row.isRevoked = false →
      Follows allowed after post place (judgeToken decoded row newJti).run) :
    Follows allowed after post place (judgeSession decoded session newJti).run := by
  cases session with
  | none => exact dead rfl
  | some row =>
    by_cases revoked : row.isRevoked = true
    · rw [judgeSession,if_pos revoked]
      exact dead revoked
    · rw [judgeSession,if_neg revoked]
      exact alive row rfl (Bool.eq_false_iff.mpr revoked)

/-- The rest of `rotateRefreshToken` after the family was not found to be revoked. -/
def lookUp (decoded : RefreshTokenPayload) (newJti : String) : Code SessionTokenResult := do
  let session ← ask (.findSession decoded.familyId)
  judgeSession decoded session newJti

theorem rotate_rule {decoded : RefreshTokenPayload}
    (checked : Follows allowed after (fun ended there => match ended with
      | .ok true => post (.error SESSION_REVOKED) there
      | .ok false => Follows allowed after post there (lookUp decoded newJti).run
      | .error e => post (.error e) there) place (isFamilyRevoked decoded.familyId).run) :
    Follows allowed after post place (rotateRefreshToken (some decoded) newJti).run := by
  refine follows_bindCode.mpr (follows_mono ?_ checked)
  intro ended there fine
  cases ended with
  | error e => exact fine
  | ok revoked =>
    cases revoked with
    | false => exact fine
    | true => exact fine

theorem lookUp_rule {decoded : RefreshTokenPayload} (find : allowed place (.findSession decoded.familyId))
    (failed : ∀ e, post (.error e) (after place (.findSession decoded.familyId) (.error e)))
    (found : ∀ session, Follows allowed after post (after place (.findSession decoded.familyId) (.ok session))
      (judgeSession decoded session newJti).run) :
    Follows allowed after post place (lookUp decoded newJti).run := by
  exact follows_asked find (fun e => failed e) fun session => found session

end Rules

/-! ### The key of a revoked family -/

/-- The family whose sessions a program has just updated. -/
def markAfter : Option String → (q : Query) → Except String (Value q) → Option String
  | _, .updateManySession familyId _, .ok _ => some familyId
  | _, _, _ => none

/-- The key of a revoked family is set right after the update of its sessions. -/
def markAllowed : Option String → Query → Prop
  | updated, .redisSet (.revoked familyId) _ => updated = some familyId
  | _, _ => True

def markEnded (_ : Except String (Option SessionTokenResult)) (_ : Option String) : Prop := True

variable {post : Except String SessionTokenResult → Option String → Prop}

theorem refuseReuse_marks (fine : ∀ e, post (.error e) none) (decoded : RefreshTokenPayload) (session : RefreshSession)
    (isAlreadyConsumed isOutdatedJti : Bool) :
    Follows markAllowed markAfter post none (refuseReuse decoded session isAlreadyConsumed isOutdatedJti).run := by
  refine follows_bindCode.mpr (revokeFamily_rule trivial (fun e => fine e) rfl fun _ => ?_)
  exact follows_bindCode.mpr (follows_caught.mpr ⟨trivial,fun _ => fine TOKEN_REUSE⟩)

theorem rotateValid_marks (fine : ∀ r, post r none) (decoded : RefreshTokenPayload) (session : RefreshSession)
    (newJti : String) : Follows markAllowed markAfter post none (rotateValid decoded session newJti).run := by
  refine follows_asked trivial (fun _ => fine _) fun email => ?_
  refine follows_asked trivial (fun _ => fine _) fun _ => ?_
  refine follows_bindCode.mpr (follows_caught.mpr (follows_bindCode.mpr ⟨trivial,fun used => ?_⟩))
  cases used with
  | error e => exact fine _
  | ok _ => exact ⟨trivial,fun _ => fine _⟩

theorem rotate_marks (fine : ∀ r, post r none) (token : Option RefreshTokenPayload) (newJti : String) :
    Follows markAllowed markAfter post none (rotateRefreshToken token newJti).run := by
  cases token with
  | none => exact fine _
  | some decoded =>
    have looked : Follows markAllowed markAfter post none (lookUp decoded newJti).run := by
      refine lookUp_rule trivial (fun _ => fine _) fun session => judgeSession_rule (fun _ => fine _) fun row _ _ => ?_
      exact judgeToken_rule trivial (fun _ => fine _) (fun _ _ => refuseReuse_marks (fun _ => fine _) ..)
        (fun _ _ => rotateValid_marks fine ..)
    refine rotate_rule (isFamilyRevoked_rule (fun _ => looked) trivial (fine _) (fun _ _ => rfl) trivial fun answer => ?_)
    cases answer with
    | error e => exact fine _
    | ok session =>
      simp only [Except.map]
      cases (session.map RefreshSession.isRevoked).getD false with
      | false => exact looked
      | true => exact fine _

theorem program_marks (task : Task) : Follows markAllowed markAfter markEnded none task.program := by
  cases task with
  | createSessionFamily userId email familyId jti =>
    refine follows_map.mpr (follows_bindCode.mpr ⟨trivial,fun answer => ?_⟩)
    cases answer with
    | error e => trivial
    | ok _ => exact follows_bindCode.mpr (follows_caught.mpr ⟨trivial,fun _ => trivial⟩)
  | rotateRefreshToken token newJti => exact follows_map.mpr (rotate_marks (fun _ => trivial) token newJti)
  | revokeFamily familyId reason =>
    exact follows_map.mpr (revokeFamily_rule trivial (fun _ => trivial) rfl fun _ => trivial)

/-- The family is open, and it is revoked in the table where Redis says so or where a program is about to make Redis say so. -/
structure Agrees (familyId : String) (w : World) (places : Nat → Option (Option String)) : Prop where
  opened : Opened familyId w
  cached : w.redis (.revoked familyId) = some "1" → Revoked familyId w
  marking : ∀ c, places c = some (some familyId) → Revoked familyId w

variable {familyId : String}

theorem exec_agrees {w : World} {places : Nat → Option (Option String)} (agrees : Agrees familyId w places) {c : Nat}
    {place : Option String} (standing : places c = some place) {q : Query} (allows : markAllowed place q) :
    Agrees familyId (exec w q).2 (Function.update places c (some (markAfter place q (exec w q).1))) ∧
      Agrees familyId (exec w q).2 (Function.update places c (some none)) := by
  have cached : (exec w q).2.redis (.revoked familyId) = some "1" → Revoked familyId (exec w q).2 := by
    intro keyed
    cases q with
    | redisSet key value =>
      by_cases own : key = .revoked familyId
      · subst own
        exact agrees.marking c (by rw [standing,show place = some familyId from allows])
      · exact agrees.cached (by simpa [exec,World.setRedis,Ne.symm own] using keyed)
    | exchange rotation =>
      refine exec_revoked _ (agrees.cached ?_)
      simp only [exec] at keyed
      split_ifs at keyed <;> exact keyed
    | openFamily family userId jti =>
      refine exec_revoked _ (agrees.cached ?_)
      simp only [exec] at keyed
      split_ifs at keyed <;> exact keyed
    | updateManySession family reason => exact exec_revoked _ (agrees.cached keyed)
    | redisGet _ | findSession _ | findToken _ | findUser _ | createAuditLog _ => exact agrees.cached keyed
  have others : ∀ d, d ≠ c → ∀ new, Function.update places c new d = some (some familyId) → Revoked familyId (exec w q).2 := by
    intro d other new marking
    rw [Function.update_of_ne other] at marking
    exact exec_revoked q (agrees.marking d marking)
  refine ⟨⟨exec_opened q agrees.opened,cached,?_⟩,⟨exec_opened q agrees.opened,cached,?_⟩⟩
  · intro d marking
    by_cases own : d = c
    · subst own
      rw [Function.update_self] at marking
      cases q with
      | updateManySession family reason =>
        obtain rfl : family = familyId := by simpa [markAfter,exec] using marking
        exact updateMany_revoked agrees.opened reason
      | redisGet _ | redisSet _ _ | findSession _ | findToken _ | findUser _ | exchange _ | openFamily _ _ _ | createAuditLog _ =>
        simp [markAfter] at marking
    · exact others d own _ marking
  · intro d marking
    by_cases own : d = c
    · subst own
      rw [Function.update_self] at marking
      cases marking
    · exact others d own _ marking

theorem markAfter_error (place : Option String) (q : Query) (e : String) : markAfter place q (.error e) = none := by
  cases q <;> rfl

theorem agrees_step (placed : Placed markAllowed markAfter markEnded none s)
    (agrees : Agrees familyId s.world (s.places markAfter none)) (i : Input Task Outside) :
    Agrees familyId (step s i).2.world ((step s i).2.places markAfter none) := by
  have idle : ∀ c new, new ≠ some (some familyId) → Agrees familyId s.world (Function.update (s.places markAfter none) c new) := by
    intro c new unmarked
    refine ⟨agrees.opened,agrees.cached,fun d marking => ?_⟩
    by_cases own : d = c
    · subst own
      rw [Function.update_self] at marking
      exact absurd marking unmarked
    · rw [Function.update_of_ne own] at marking
      exact agrees.marking d marking
  rcases placed_cases placed i with same | ⟨c,task,_,_,_,world,places⟩ | ⟨c,outcome,p,q,_,_,standing,allows,_,world,places⟩ |
    ⟨c,_,_,world,places⟩ | ⟨o,_,_,world,places⟩
  · rw [step,same]
    exact agrees
  · rw [step,world,places]
    exact idle c _ (by simp)
  · rw [step,world,places]
    cases outcome with
    | failed message =>
      rw [respond,markAfter_error]
      exact idle c _ (by simp)
    | ok => exact (exec_agrees agrees standing allows).1
    | lost message =>
      rw [respond,markAfter_error]
      exact (exec_agrees agrees standing allows).2
  · rw [step,world,places]
    exact idle c _ (by simp)
  · rw [step,world,places]
    cases o with
    | changeUser id email => exact ⟨agrees.opened,agrees.cached,agrees.marking⟩
    | expire key =>
      refine ⟨agrees.opened,?_,agrees.marking⟩
      intro keyed
      by_cases own : key = .revoked familyId
      · simp [Outside.apply,World.setRedis,own] at keyed
      · exact agrees.cached (by simpa [Outside.apply,World.setRedis,Ne.symm own] using keyed)

/-! ### A token that is presented again -/

/-- What a call with a used token has learned: nothing yet, that its family is revoked, a failure of
    the database, or what cannot be true. -/
inductive Watch where
  | asking
  | revoked
  | failed
  | impossible
deriving DecidableEq, Repr

def watchAfter : Watch → (q : Query) → Except String (Value q) → Watch
  | .asking, .redisGet _, .ok value => if value = some "1" then .revoked else .asking
  | .asking, .redisGet _, .error _ => .asking
  | .asking, .findSession _, .ok (some session) => if session.isRevoked then .revoked else .asking
  | .asking, .findSession _, .error _ => .failed
  | .asking, .findToken _, .ok record => if (record.map RefreshTokenHistory.isConsumed).getD false then .asking else .impossible
  | .asking, .findToken _, .error _ => .failed
  | .asking, .updateManySession _ _, .ok _ => .revoked
  | .asking, .updateManySession _ _, .error _ => .failed
  | .asking, _, _ => .impossible
  | watch, _, _ => watch

def watchAllowed (decoded : RefreshTokenPayload) : Watch → Query → Prop
  | .asking, .redisGet key => key = .revoked decoded.familyId
  | .asking, .findSession familyId => familyId = decoded.familyId
  | .asking, .findToken jti => jti = decoded.jti
  | .asking, .updateManySession familyId _ => familyId = decoded.familyId
  | .asking, _ => False
  | _, _ => True

/-- The call ends when it has learned something, and it throws. -/
def watchEnded {α : Type} (ended : Except String α) : Watch → Prop
  | .asking => False
  | .impossible => True
  | _ => ∃ e, ended = .error e

section Watching
variable {decoded : RefreshTokenPayload}

theorem impossible_follows {α : Type} (p : Program Query Value (Except String α)) :
    Follows (watchAllowed decoded) watchAfter watchEnded .impossible p :=
  follows_free (fun _ => ⟨trivial,fun _ => rfl⟩) (fun _ => trivial) p

theorem refuseReuse_watched (session : RefreshSession) (isAlreadyConsumed isOutdatedJti : Bool) :
    Follows (watchAllowed decoded) watchAfter watchEnded .asking
      (refuseReuse decoded session isAlreadyConsumed isOutdatedJti).run := by
  refine follows_bindCode.mpr (revokeFamily_rule rfl (fun e => ⟨e,rfl⟩) trivial fun _ => ?_)
  exact follows_bindCode.mpr (follows_caught.mpr ⟨trivial,fun _ => ⟨TOKEN_REUSE,rfl⟩⟩)

theorem judgeToken_watched (session : RefreshSession) (newJti : String) :
    Follows (watchAllowed decoded) watchAfter watchEnded .asking (judgeToken decoded session newJti).run := by
  refine judgeToken_rule rfl (fun e => ⟨e,rfl⟩) (fun record isAlreadyConsumed => ?_) (fun record fresh => ?_)
  · cases used : (record.map RefreshTokenHistory.isConsumed).getD false with
    | true =>
      rw [show watchAfter .asking (.findToken decoded.jti) (.ok record) = .asking by simp [watchAfter,used]]
      exact refuseReuse_watched ..
    | false =>
      rw [show watchAfter .asking (.findToken decoded.jti) (.ok record) = .impossible by simp [watchAfter,used]]
      exact impossible_follows _
  · rw [show watchAfter .asking (.findToken decoded.jti) (.ok record) = .impossible by simp [watchAfter,fresh]]
    exact impossible_follows _

theorem lookUp_watched (newJti : String) :
    Follows (watchAllowed decoded) watchAfter watchEnded .asking (lookUp decoded newJti).run := by
  refine lookUp_rule rfl (fun e => ⟨e,rfl⟩) fun session => ?_
  cases session with
  | none => exact impossible_follows _
  | some row =>
    cases revoked : row.isRevoked with
    | true =>
      rw [show watchAfter .asking (.findSession decoded.familyId) (.ok (some row)) = .revoked by simp [watchAfter,revoked]]
      refine judgeSession_rule (fun _ => ⟨SESSION_REVOKED,rfl⟩) fun other same alive => ?_
      obtain rfl := Option.some.inj same
      rw [revoked] at alive
      cases alive
    | false =>
      rw [show watchAfter .asking (.findSession decoded.familyId) (.ok (some row)) = .asking by simp [watchAfter,revoked]]
      refine judgeSession_rule (fun dead => ?_) fun _ _ _ => judgeToken_watched ..
      simp [revoked] at dead

theorem rotate_watched (newJti : String) :
    Follows (watchAllowed decoded) watchAfter watchEnded .asking (Task.rotateRefreshToken (some decoded) newJti).program := by
  have throws : ∀ (ended : Except String SessionTokenResult) there, watchEnded ended there → watchEnded (ended.map some) there := by
    intro ended there fine
    cases there with
    | asking => exact fine
    | impossible => trivial
    | revoked | failed =>
      obtain ⟨e,rfl⟩ := fine
      exact ⟨e,rfl⟩
  refine follows_map.mpr (follows_mono throws ?_)
  refine rotate_rule (isFamilyRevoked_rule (fun _ => lookUp_watched newJti) rfl ⟨SESSION_REVOKED,rfl⟩ ?_ rfl fun answer => ?_)
  · intro answer other
    cases answer with
    | error e => rfl
    | ok value =>
      have differs : value ≠ some "1" := fun same => other (by rw [same])
      simp [watchAfter,differs]
  · cases answer with
    | error e => exact ⟨e,rfl⟩
    | ok session =>
      cases session with
      | none => exact impossible_follows _
      | some row =>
        cases revoked : row.isRevoked with
        | true => simpa [Except.map,revoked,watchAfter] using ⟨SESSION_REVOKED,rfl⟩
        | false => simpa [Except.map,revoked,watchAfter] using lookUp_watched newJti

/-- What the call has learned is true. -/
def Learned (familyId : String) (w : World) : Watch → Prop
  | .revoked => Revoked familyId w
  | .impossible => False
  | _ => True

theorem respond_revoked {familyId : String} {w : World} (revoked : Revoked familyId w) (q : Query) (outcome : Outcome) :
    Revoked familyId (respond exec w q outcome).2 := by
  cases outcome with
  | failed message => exact revoked
  | ok => exact exec_revoked q revoked
  | lost message => exact exec_revoked q revoked

theorem learned_respond {w : World} {watch : Watch} {q : Query} (allows : watchAllowed decoded watch q)
    (learned : Learned decoded.familyId w watch) (opened : Opened decoded.familyId w) (consumed : Consumed decoded.jti w)
    (cached : w.redis (.revoked decoded.familyId) = some "1" → Revoked decoded.familyId w) (outcome : Outcome) :
    Learned decoded.familyId (respond exec w q outcome).2 (watchAfter watch q (respond exec w q outcome).1) := by
  cases watch with
  | revoked => exact respond_revoked learned q outcome
  | failed => trivial
  | impossible => exact learned.elim
  | asking =>
    cases q with
    | redisGet key =>
      obtain rfl : key = .revoked decoded.familyId := allows
      cases outcome with
      | failed message => trivial
      | lost message => trivial
      | ok =>
        by_cases keyed : w.redis (.revoked decoded.familyId) = some "1"
        · rw [respond,show watchAfter .asking (.redisGet (.revoked decoded.familyId)) (exec w (.redisGet (.revoked decoded.familyId))).1 =
            .revoked by simp [exec,watchAfter,keyed]]
          exact cached keyed
        · simp [respond,exec,watchAfter,keyed,Learned]
    | findSession familyId =>
      obtain rfl : familyId = decoded.familyId := allows
      obtain ⟨session,found⟩ := opened
      cases outcome with
      | failed message => trivial
      | lost message => trivial
      | ok =>
        cases flag : session.isRevoked with
        | true =>
          rw [respond,show watchAfter .asking (.findSession decoded.familyId) (exec w (.findSession decoded.familyId)).1 = .revoked by
            simp [exec,watchAfter,found,flag]]
          exact ⟨session,found,flag⟩
        | false => simp [respond,exec,watchAfter,found,flag,Learned]
    | findToken jti =>
      obtain rfl : jti = decoded.jti := allows
      obtain ⟨row,found,used⟩ := consumed
      cases outcome with
      | failed message => trivial
      | lost message => trivial
      | ok => simp [respond,exec,watchAfter,found,used,Learned]
    | updateManySession familyId reason =>
      obtain rfl : familyId = decoded.familyId := allows
      cases outcome with
      | failed message => trivial
      | lost message => trivial
      | ok => exact updateMany_revoked opened reason
    | redisSet _ _ | findUser _ | exchange _ | openFamily _ _ _ | createAuditLog _ => exact allows.elim

/-- A call that presents a used token, while others run. -/
structure Watched (decoded : RefreshTokenPayload) (c : Nat) (s : System) : Prop where
  placed : Placed markAllowed markAfter markEnded none s
  agrees : Agrees decoded.familyId s.world (s.places markAfter none)
  consumed : Consumed decoded.jti s.world
  learns : ∃ t, s.threads c = some t ∧ Follows (watchAllowed decoded) watchAfter watchEnded (t.place watchAfter .asking) t.rest ∧
    Learned decoded.familyId s.world (t.place watchAfter .asking)

variable {s : System}

theorem learned_step {watch : Watch} (learned : Learned decoded.familyId s.world watch) (i : Input Task Outside) :
    Learned decoded.familyId (step s i).2.world watch := by
  cases watch with
  | revoked =>
    exact step_revoked learned i
  | asking => trivial
  | failed => trivial
  | impossible => exact learned.elim

theorem watched_step {c : Nat} (watched : Watched decoded c s) {i : Input Task Outside} (started : ∀ task, i ≠ .start c task)
    (ended : i ≠ .exit c) : Watched decoded c (step s i).2 := by
  refine ⟨placed_step program_marks watched.placed i,agrees_step watched.placed watched.agrees i,
    step_consumed watched.consumed i,?_⟩
  obtain ⟨t,running,follows,learned⟩ := watched.learns
  rcases thread_step exec Task.program Outside.apply running started ended with kept | ⟨outcome,made,q,next,rfl,moved,world⟩
  · exact ⟨t,kept,follows,learned_step learned i⟩
  · refine ⟨_,moved,?_,?_⟩
    · rw [Thread.place_append watchAfter .asking made q _ (.call q next)]
      exact follows.2 _
    · rw [Thread.place_append watchAfter .asking made q _ (.call q next),step,world]
      exact learned_respond follows.1 learned watched.agrees.opened watched.consumed watched.agrees.cached outcome

theorem watched_run {c : Nat} (watched : Watched decoded c s) {inputs : List (Input Task Outside)}
    (started : ∀ task, .start c task ∉ inputs) (ended : .exit c ∉ inputs) : Watched decoded c (run step s inputs) := by
  refine @run_inv_of_mem System _ _ step (Watched decoded c) inputs (fun s i listed watched => ?_) s watched
  refine watched_step watched ?_ ?_
  · rintro task rfl
    exact started task listed
  · rintro rfl
    exact ended listed

end Watching

/-! ### Calls that have ended -/

/-- The queries whose errors end a call. -/
def Query.ofDatabase : Query → Bool
  | .redisGet _ => false
  | .redisSet _ _ => false
  | .createAuditLog _ => false
  | _ => true

/-- The database has answered the call. -/
def Served (made : List (Answered Query Value)) : Prop :=
  ∀ answered ∈ made, answered.1.ofDatabase = true → ∃ value, answered.2 = .ok value

theorem watchAfter_failed {watch : Watch} {q : Query} {answer : Except String (Value q)}
    (failed : watchAfter watch q answer = .failed) : watch = .failed ∨ q.ofDatabase = true ∧ ∃ e, answer = .error e := by
  cases watch with
  | failed => exact .inl rfl
  | revoked => cases failed
  | impossible => cases failed
  | asking =>
    right
    cases answer with
    | error e =>
      refine ⟨?_,e,rfl⟩
      cases q with
      | redisGet _ | redisSet _ _ | createAuditLog _ => cases failed
      | findSession _ | findToken _ | findUser _ | exchange _ | openFamily _ _ _ | updateManySession _ _ => rfl
    | ok value =>
      cases q with
      | redisGet key =>
        simp only [watchAfter] at failed
        split at failed <;> cases failed
      | findSession familyId =>
        cases value with
        | none => cases failed
        | some session =>
          simp only [watchAfter] at failed
          split at failed <;> cases failed
      | findToken jti =>
        simp only [watchAfter] at failed
        split at failed <;> cases failed
      | updateManySession _ _ | redisSet _ _ | findUser _ | exchange _ | openFamily _ _ _ | createAuditLog _ => cases failed

variable {made : List (Answered Query Value)}

theorem served_place (served : Served made) (rest : Program Query Value (Except String (Option SessionTokenResult))) :
    (Thread.mk made rest).place watchAfter .asking ≠ .failed := by
  induction made using List.reverseRecOn with
  | nil =>
    intro failed
    cases failed
  | append_singleton made answered ih =>
    obtain ⟨q,answer⟩ := answered
    rw [Thread.place_append watchAfter .asking made q answer rest]
    intro failed
    rcases watchAfter_failed failed with before | ⟨database,e,errors⟩
    · exact ih (fun other listed => served other (List.mem_append_left _ listed)) before
    · obtain ⟨value,ok⟩ : ∃ value, answer = .ok value := served ⟨q,answer⟩ (by simp) database
      rw [ok] at errors
      cases errors

/-- Whether a call has exchanged its token. -/
def tookAfter (jti : String) : Bool → (q : Query) → Except String (Value q) → Bool
  | took, .exchange rotation, .ok _ => took || rotation.jti == jti
  | took, _, _ => took

/-- A call that returns tokens has exchanged its own. -/
def tookEnded {α : Type} (ended : Except String α) (took : Bool) : Prop := ∀ result, ended = .ok result → took = true

theorem rotate_took (decoded : RefreshTokenPayload) (newJti : String) :
    Follows (fun _ _ => True) (tookAfter decoded.jti) tookEnded false (Task.rotateRefreshToken (some decoded) newJti).program := by
  have throws : ∀ {α : Type} (e : String) (took : Bool), tookEnded (.error e : Except String α) took := by
    intro α e took result same
    cases same
  have maps : ∀ (ended : Except String SessionTokenResult) took, tookEnded ended took → tookEnded (ended.map some) took := by
    intro ended took fine
    cases ended with
    | error e => exact throws e took
    | ok result => exact fun _ _ => fine result rfl
  have looked : Follows (fun _ _ => True) (tookAfter decoded.jti) tookEnded false (lookUp decoded newJti).run := by
    refine lookUp_rule trivial (throws · _) fun session => judgeSession_rule (fun _ => throws _ _) fun row _ _ => ?_
    refine judgeToken_rule trivial (throws · _) (fun _ _ => ?_) (fun _ _ => ?_)
    · refine follows_bindCode.mpr (revokeFamily_rule trivial (throws · _) trivial fun _ => ?_)
      exact follows_bindCode.mpr (follows_caught.mpr ⟨trivial,fun _ => throws _ _⟩)
    · refine follows_asked trivial (fun e => throws e _) fun email => ?_
      refine follows_asked trivial (fun e => throws e _) fun _ => ?_
      have took : tookAfter decoded.jti false (.exchange ⟨decoded.familyId,decoded.userId,decoded.jti,newJti,
          row.rotationCounter + 1⟩) (.ok ()) = true := by simp [tookAfter]
      refine follows_bindCode.mpr (follows_caught.mpr (follows_bindCode.mpr ⟨trivial,fun used => ?_⟩))
      cases used with
      | error e => exact fun _ _ => took
      | ok _ => exact ⟨trivial,fun _ _ _ => took⟩
  refine follows_map.mpr (follows_mono maps (rotate_rule (isFamilyRevoked_rule (fun _ => looked) trivial (throws _ _)
    (fun _ _ => rfl) trivial fun answer => ?_)))
  cases answer with
  | error e => exact throws e _
  | ok session =>
    simp only [Except.map]
    cases (session.map RefreshSession.isRevoked).getD false with
    | false => exact looked
    | true => exact throws _ _

theorem took_made {rest : Program Query Value (Except String (Option SessionTokenResult))}
    (took : (Thread.mk made rest).place (tookAfter jti) false = true) :
    ∃ rotation, rotation.jti = jti ∧ ⟨.exchange rotation,.ok ()⟩ ∈ made := by
  induction made using List.reverseRecOn with
  | nil => cases took
  | append_singleton made answered ih =>
    obtain ⟨q,answer⟩ := answered
    rw [Thread.place_append (tookAfter jti) false made q answer rest] at took
    by_cases before : (Thread.mk made rest).place (tookAfter jti) false = true
    · obtain ⟨rotation,jtiIs,listed⟩ := ih before
      exact ⟨rotation,jtiIs,List.mem_append_left _ listed⟩
    · rw [Bool.eq_false_iff.mpr before] at took
      cases q with
      | exchange rotation =>
        cases answer with
        | error e => cases took
        | ok _ => exact ⟨rotation,by simpa [tookAfter] using took,by simp⟩
      | redisGet _ | redisSet _ _ | findSession _ | findToken _ | findUser _ | openFamily _ _ _ | updateManySession _ _
      | createAuditLog _ => cases took

/-- A call that started when its number was free has ended, with the answers that it was given. -/
structure Ended (s : System) (c : Nat) (task : Task) (inputs : List (Input Task Outside)) (made : List (Answered Query Value))
    (ended : Except String (Option SessionTokenResult)) : Prop where
  idle : ∀ q, ¬ s.At c q
  started : ∀ task, .start c task ∉ inputs
  exited : .exit c ∉ inputs
  returned : (run step s (.start c task :: inputs)).threads c = some ⟨made,.returned ended⟩

section Calls
variable {s : System} {c : Nat} {decoded : RefreshTokenPayload} {newJti : String} {inputs : List (Input Task Outside)}
  {made : List (Answered Query Value)} {ended : Except String (Option SessionTokenResult)}

theorem started_thread (idle : ∀ q, ¬ s.At c q) (task : Task) :
    (step s (.start c task)).2.threads c = some ⟨[],task.program⟩ := by
  rw [step,step_start exec Task.program Outside.apply idle task,System.put_threads,if_pos rfl]

theorem tokens_exchange (call : Ended s c (.rotateRefreshToken (some decoded) newJti) inputs made ended)
    {result : Option SessionTokenResult} (fine : ended = .ok result) :
    ∃ t ∈ history step (step s (.start c (.rotateRefreshToken (some decoded) newJti))).2 inputs,
      (∃ outcome, t.input = .proceed c outcome) ∧ Exchanges decoded.jti t := by
  have thread := started_thread call.idle (.rotateRefreshToken (some decoded) newJti)
  obtain ⟨t,running,follows⟩ := @follows_run _ _ _ _ _ _ _ (fun _ _ => True) (tookAfter decoded.jti) tookEnded false exec
    Task.program Outside.apply c _ ⟨_,thread,rotate_took decoded newJti⟩ inputs call.started call.exited
  have same : t = ⟨made,.returned ended⟩ := Option.some.inj (running.symm.trans call.returned)
  subst same
  obtain ⟨rotation,jtiIs,listed⟩ := took_made (follows result fine)
  have fresh : ∀ t, (step s (.start c (.rotateRefreshToken (some decoded) newJti))).2.threads c = some t → t.made = [] := by
    intro t other
    rw [thread] at other
    obtain rfl := Option.some.inj other
    rfl
  obtain ⟨u,member,own,answered⟩ := made_history exec Task.program Outside.apply fresh inputs _ running _ listed
  exact ⟨u,member,own,rotation,jtiIs,answered⟩

theorem watched_start (placed : Placed markAllowed markAfter markEnded none s)
    (agrees : Agrees decoded.familyId s.world (s.places markAfter none)) (consumed : Consumed decoded.jti s.world)
    (idle : ∀ q, ¬ s.At c q) : Watched decoded c (step s (.start c (.rotateRefreshToken (some decoded) newJti))).2 :=
  ⟨placed_step program_marks placed _,agrees_step placed agrees _,step_consumed consumed _,
    ⟨_,started_thread idle _,rotate_watched newJti,trivial⟩⟩

theorem reuse_revokes (placed : Placed markAllowed markAfter markEnded none s)
    (agrees : Agrees decoded.familyId s.world (s.places markAfter none)) (consumed : Consumed decoded.jti s.world)
    (call : Ended s c (.rotateRefreshToken (some decoded) newJti) inputs made ended) (served : Served made) :
    (∃ e, ended = .error e) ∧
      Revoked decoded.familyId (run step s (.start c (.rotateRefreshToken (some decoded) newJti) :: inputs)).world := by
  have watched := watched_run (@watched_start s c decoded newJti placed agrees consumed call.idle) call.started call.exited
  obtain ⟨t,running,follows,learned⟩ := watched.learns
  have same : t = ⟨made,.returned ended⟩ := Option.some.inj (running.symm.trans call.returned)
  subst same
  have answered := served_place served (.returned ended)
  cases place : (Thread.mk made (.returned ended)).place watchAfter .asking with
  | asking =>
    rw [place] at follows
    exact follows.elim
  | failed => exact absurd place answered
  | impossible =>
    rw [place] at learned
    exact learned.elim
  | revoked =>
    rw [place] at follows learned
    exact ⟨follows,learned⟩

end Calls

/-- The family is open, Redis calls it revoked only where the table does, and no call that runs has updated its sessions. -/
structure Settled (familyId : String) (s : System) : Prop where
  opened : Opened familyId s.world
  cached : s.world.redis (.revoked familyId) = some "1" → Revoked familyId s.world
  untouched : ∀ c t, s.threads c = some t → ∀ reason answer, ⟨.updateManySession familyId reason,answer⟩ ∉ t.made

theorem place_marked {rest : Program Query Value (Except String (Option SessionTokenResult))}
    (marked : (Thread.mk made rest).place markAfter none = some familyId) :
    ∃ reason answer, ⟨.updateManySession familyId reason,answer⟩ ∈ made := by
  induction made using List.reverseRecOn with
  | nil => cases marked
  | append_singleton made answered ih =>
    obtain ⟨q,answer⟩ := answered
    rw [Thread.place_append markAfter none made q answer rest] at marked
    cases q with
    | updateManySession family reason =>
      cases answer with
      | error e => cases marked
      | ok value =>
        obtain rfl : family = familyId := Option.some.inj marked
        exact ⟨reason,.ok value,by simp⟩
    | redisGet _ | redisSet _ _ | findSession _ | findToken _ | findUser _ | exchange _ | openFamily _ _ _ | createAuditLog _ =>
      cases marked

theorem agrees_of_settled (settled : Settled familyId s) : Agrees familyId s.world (s.places markAfter none) := by
  refine ⟨settled.opened,settled.cached,?_⟩
  intro c marking
  obtain ⟨⟨made,rest⟩,running,marked⟩ := Option.map_eq_some_iff.mp marking
  obtain ⟨reason,answer,listed⟩ := place_marked marked
  exact absurd listed (settled.untouched c _ running reason answer)

theorem run_agrees (placed : Placed markAllowed markAfter markEnded none s) (settled : Settled familyId s)
    (inputs : List (Input Task Outside)) :
    Agrees familyId (run step s inputs).world ((run step s inputs).places markAfter none) :=
  (@run_inv System _ _ step (fun s => Placed markAllowed markAfter markEnded none s ∧
    Agrees familyId s.world (s.places markAfter none))
    (fun _ i both => ⟨placed_step program_marks both.1 i,agrees_step both.1 both.2 i⟩) s
    ⟨placed,agrees_of_settled settled⟩ inputs).2

/-- In the runs whose transactions find their token unconsumed no token is exchanged twice; a call
    returns tokens only after its own exchange. In every run a call with a token that was exchanged
    before it started throws, and it leaves the family revoked if the database answered it. -/
theorem tokens_single_use (w : World) (inputs : List (Input Task Outside)) :
    ((∀ t ∈ history step (System.start w) inputs, Unconsumed t.before t.input) →
      (history step (System.start w) inputs).Pairwise fun t u => ∀ jti, Exchanges jti t → ¬ Exchanges jti u) ∧
    ∀ first second c decoded newJti made ended,
      inputs = first ++ .start c (.rotateRefreshToken (some decoded) newJti) :: second →
      Ended (run step (System.start w) first) c (.rotateRefreshToken (some decoded) newJti) second made ended →
      ((∃ result, ended = .ok result) →
        ∃ t ∈ history step (step (run step (System.start w) first) (.start c (.rotateRefreshToken (some decoded) newJti))).2 second,
          (∃ outcome, t.input = .proceed c outcome) ∧ Exchanges decoded.jti t) ∧
      ((∃ opening rest, first = opening ++ rest ∧ Settled decoded.familyId (run step (System.start w) opening)) →
        (∃ t ∈ history step (System.start w) first, Exchanges decoded.jti t) → Served made →
        (∃ e, ended = .error e) ∧ Revoked decoded.familyId (run step (System.start w) inputs).world) := by
  refine ⟨exchanged_once,?_⟩
  rintro first second c decoded newJti made ended rfl call
  refine ⟨?_,?_⟩
  · rintro ⟨result,fine⟩
    exact tokens_exchange call fine
  · rintro ⟨opening,rest,rfl,settled⟩ ⟨t,listed,exchanges⟩ served
    have agrees : Agrees decoded.familyId (run step (System.start w) (opening ++ rest)).world
        ((run step (System.start w) (opening ++ rest)).places markAfter none) := by
      rw [run_append]
      exact run_agrees (run_placed program_marks w opening) settled rest
    rw [run_append]
    exact reuse_revokes (run_placed program_marks w _) agrees (run_consumed listed exchanges) call served

/-! ### A family that is revoked -/

/-- Whether a call has found the family alive. -/
def aliveAfter (familyId : String) : Bool → (q : Query) → Except String (Value q) → Bool
  | alive, .findSession family, .ok row => alive || (family == familyId && row.any fun session => !session.isRevoked)
  | alive, _, _ => alive

def aliveEnded {α : Type} (ended : Except String α) (alive : Bool) : Prop := alive = true ∨ ∃ e, ended = .error e

theorem rotate_alive (newJti : String) :
    Follows (fun _ _ => True) (aliveAfter decoded.familyId) aliveEnded false
      (Task.rotateRefreshToken (some decoded) newJti).program := by
  have free : ∀ p : Program Query Value (Except String SessionTokenResult),
      Follows (fun _ _ => True) (aliveAfter decoded.familyId) aliveEnded true p :=
    follows_free (fun q => ⟨trivial,fun answer => by cases q <;> cases answer <;> rfl⟩) fun _ => .inl rfl
  have throws : ∀ (e : String) (alive : Bool), aliveEnded (.error e : Except String SessionTokenResult) alive :=
    fun e _ => .inr ⟨e,rfl⟩
  have looked : Follows (fun _ _ => True) (aliveAfter decoded.familyId) aliveEnded false (lookUp decoded newJti).run := by
    refine lookUp_rule trivial (throws · _) fun session => judgeSession_rule (fun _ => throws _ _) fun row same alive => ?_
    subst same
    rw [show aliveAfter decoded.familyId false (.findSession decoded.familyId) (.ok (some row)) = true by simp [aliveAfter,alive]]
    exact free _
  refine follows_map.mpr (follows_mono (fun ended _ fine => ?_) (rotate_rule (isFamilyRevoked_rule (fun _ => looked) trivial
    (throws _ _) (fun _ _ => rfl) trivial fun answer => ?_)))
  · exact fine.imp_right fun ⟨e,same⟩ => ⟨e,by rw [same]; rfl⟩
  · cases answer with
    | error e => exact throws e _
    | ok session =>
      cases session with
      | none => simpa [Except.map,aliveAfter] using looked
      | some row =>
        cases revoked : row.isRevoked with
        | true => simpa [Except.map,revoked] using throws _ _
        | false => simpa [Except.map,revoked,aliveAfter] using free _

theorem revoked_learns (w : World) (q : Query) (outcome : Outcome) (alive : Bool) (revoked : Revoked familyId w)
    (none_ : alive = false) : aliveAfter familyId alive q (respond exec w q outcome).1 = false := by
  subst none_
  cases q with
  | findSession family =>
    cases outcome with
    | ok =>
      obtain ⟨session,found,flag⟩ := revoked
      by_cases own : family = familyId
      · subst own
        simp [respond,exec,aliveAfter,found,flag]
      · simp [respond,exec,aliveAfter,own]
    | failed _ | lost _ => rfl
  | _ => cases (respond exec w _ outcome).1 <;> rfl

/-- A family that was revoked stays revoked, whatever calls interleave and whatever fails, and a
    call that presents a token of it afterwards throws. -/
theorem revocation_final (w : World) (first second : List (Input Task Outside))
    (revoked : Revoked familyId (run step (System.start w) first).world) :
    Revoked familyId (run step (System.start w) (first ++ second)).world ∧
    ∀ c decoded newJti rest made ended, second = .start c (.rotateRefreshToken (some decoded) newJti) :: rest →
      decoded.familyId = familyId →
      Ended (run step (System.start w) first) c (.rotateRefreshToken (some decoded) newJti) rest made ended →
      ∃ e, ended = .error e := by
  constructor
  · rw [run_append]
    exact @run_inv System _ _ step (fun s => Revoked familyId s.world) (fun _ i revoked => step_revoked revoked i) _ revoked second
  · rintro c decoded newJti rest made ended rfl rfl call
    have thread := started_thread call.idle (.rotateRefreshToken (some decoded) newJti)
    obtain ⟨t,running,follows,alive⟩ := @follows_learning _ _ _ _ _ _ _ (fun _ _ => True) (aliveAfter decoded.familyId)
      aliveEnded false exec Task.program Outside.apply c _ (Revoked decoded.familyId) (· = false) (fun _ q => exec_revoked q)
      outside_revoked revoked_learns (step_revoked revoked _) ⟨_,thread,rotate_alive newJti,rfl⟩ rest call.started call.exited
    obtain rfl : t = ⟨made,.returned ended⟩ := Option.some.inj (running.symm.trans call.returned)
    exact follows.resolve_left (by simp [alive])

/-! ### Two presentations of one token -/

def emptyWorld : World := ⟨[],[],fun _ => some "u@example.org",fun _ => none,[]⟩
def signedIn : List (Input Task Outside) :=
  .start 0 (.createSessionFamily "u" "u@example.org" "f" "a") :: List.replicate 2 (.proceed 0 .ok)
def rotates (c : Nat) (newJti : String) : Input Task Outside := .start c (.rotateRefreshToken (some ⟨"u","f",1,"a"⟩) newJti)

/-- A call presents the token and is carried out. -/
def presentedFirst : List (Input Task Outside) := rotates 1 "b" :: List.replicate 8 (.proceed 1 .ok)

def presentedAgain : List (Input Task Outside) := rotates 2 "c" :: List.replicate 7 (.proceed 2 .ok)

/-- The second call exchanges the token between the check of the first and its exchange. -/
def presentedAtOnce : List (Input Task Outside) :=
  signedIn ++ [rotates 1 "b",rotates 2 "c"] ++ List.replicate 5 (.proceed 1 .ok) ++ List.replicate 8 (.proceed 2 .ok) ++
    List.replicate 3 (.proceed 1 .ok)

/-- The family is revoked in the table, but its key is not set. -/
def signedOut : List (Input Task Outside) :=
  signedIn ++ [.start 3 (.revokeFamily "f" "logout"),.proceed 3 .ok,.proceed 3 (.failed "down")]

theorem revocation_final_signedOut :
    ∃ made e, (run step (System.start emptyWorld) (signedOut ++ rotates 1 "b" :: List.replicate 2 (.proceed 1 .ok))).threads 1 =
      some ⟨made,.returned (.error e)⟩ := by
  have revoked : Revoked "f" (run step (System.start emptyWorld) signedOut).world := ⟨_,rfl,rfl⟩
  obtain ⟨_,throws⟩ := revocation_final emptyWorld signedOut (rotates 1 "b" :: List.replicate 2 (.proceed 1 .ok)) revoked
  have ended := throws 1 ⟨"u","f",1,"a"⟩ "b" _ _ (.error SESSION_REVOKED) rfl rfl ⟨?_,?_,?_,rfl⟩
  · obtain ⟨e,same⟩ := ended
    exact ⟨_,e,by rw [← same]; rfl⟩
  · rintro q ⟨made,next,running⟩
    cases running
  · intro task listed
    simp at listed
  · intro listed
    simp at listed

theorem signedIn_settled : Settled "f" (run step (System.start emptyWorld) signedIn) := by
  refine ⟨⟨_,rfl⟩,?_,?_⟩
  · intro keyed
    cases keyed
  · intro c t running reason answer listed
    cases c with
    | zero =>
      obtain rfl := Option.some.inj running
      simp at listed
    | succ c => cases running

theorem tokens_single_use_again :
    ((history step (System.start emptyWorld) (signedIn ++ presentedFirst ++ presentedAgain)).Pairwise fun t u =>
      ∀ jti, Exchanges jti t → ¬ Exchanges jti u) ∧
    (∃ t ∈ history step (System.start emptyWorld) (signedIn ++ presentedFirst), Exchanges "a" t) ∧
    Revoked "f" (run step (System.start emptyWorld) (signedIn ++ presentedFirst ++ presentedAgain)).world := by
  have checked : (history step (System.start emptyWorld) (signedIn ++ presentedFirst ++ presentedAgain)).all
      (fun t => findsUnconsumed t.before t.input) = true := by decide +kernel
  have exchanged : ∃ t ∈ history step (System.start emptyWorld) (signedIn ++ presentedFirst), Exchanges "a" t :=
    ⟨_,List.mem_of_getElem? (show (history step (System.start emptyWorld) (signedIn ++ presentedFirst))[9]? = some _ from rfl),
      ⟨"f","u","a","b",2⟩,rfl,rfl⟩
  obtain ⟨once,calls⟩ := tokens_single_use emptyWorld (signedIn ++ presentedFirst ++ presentedAgain)
  refine ⟨once fun t listed => unconsumed_of_check (List.all_eq_true.mp checked t listed),exchanged,?_⟩
  have ended := calls (signedIn ++ presentedFirst) _ 2 ⟨"u","f",1,"a"⟩ "c" _ (.error TOKEN_REUSE) rfl ⟨?_,?_,?_,rfl⟩
  · exact (ended.2 ⟨signedIn,presentedFirst,rfl,signedIn_settled⟩ exchanged (by simp [Served,Query.ofDatabase])).2
  · rintro q ⟨made,next,running⟩
    cases running
  · intro task listed
    simp at listed
  · intro listed
    simp at listed

/-- Two calls that run at once exchange one token twice, and both return tokens. -/
theorem token_exchanged_twice :
    ¬ ((history step (System.start emptyWorld) presentedAtOnce).Pairwise fun t u =>
      ∀ jti, Exchanges jti t → ¬ Exchanges jti u) ∧
    (∃ made tokens, (run step (System.start emptyWorld) presentedAtOnce).threads 1 = some ⟨made,.returned (.ok (some tokens))⟩) ∧
    ∃ made tokens, (run step (System.start emptyWorld) presentedAtOnce).threads 2 = some ⟨made,.returned (.ok (some tokens))⟩ := by
  refine ⟨fun once => ?_,⟨_,_,rfl⟩,⟨_,_,rfl⟩⟩
  have apart := List.pairwise_iff_getElem.mp once 15 18 (by decide +kernel) (by decide +kernel) (by decide) "a"
  exact apart ⟨⟨"f","u","a","c",2⟩,rfl,rfl⟩ ⟨⟨"f","u","a","b",2⟩,rfl,rfl⟩

end StellarAlerts.SessionManager
