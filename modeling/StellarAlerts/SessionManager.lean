import StellarAlerts.Interleaving

/-!
Session families and their refresh tokens: the programs that open a family, rotate a
token and revoke a family, with the queries that they make. Redis answers first whether
a family is revoked, and its keys may run out at any time.
-/
namespace StellarAlerts.SessionManager
open Interleaving

structure RefreshSession where
  familyId : String
  userId : String
  currentJti : String
  rotationCounter : Nat
  isRevoked : Bool
  revocationReason : Option String
deriving DecidableEq, Repr

structure RefreshTokenHistory where
  familyId : String
  jti : String
  userId : String
  rotationCounter : Nat
  isConsumed : Bool
deriving DecidableEq, Repr

/-- The details of a `REFRESH_TOKEN_REUSE_DETECTED` entry. -/
structure ReuseDetails where
  familyId : String
  userId : String
  replayedJti : String
  presentedCounter : Nat
  expectedCurrentJti : String
  isAlreadyConsumed : Bool
  isOutdatedJti : Bool
deriving DecidableEq, Repr

inductive RedisKey where
  | revoked (familyId : String)
  | currentJti (familyId : String)
  | used (jti : String)
deriving DecidableEq, Repr

def REDIS_FAMILY_PREFIX : String := "auth:family:"
def REDIS_REUSED_PREFIX : String := "auth:refresh_jti_used:"

def RedisKey.text : RedisKey → String
  | .revoked familyId => REDIS_FAMILY_PREFIX ++ familyId ++ ":revoked"
  | .currentJti familyId => REDIS_FAMILY_PREFIX ++ familyId ++ ":current_jti"
  | .used jti => REDIS_REUSED_PREFIX ++ jti

structure RefreshTokenPayload where
  userId : String
  familyId : String
  rotationCounter : Nat
  jti : String
deriving DecidableEq, Repr

/-- The payload of an access token. -/
structure UserPayload where
  id : String
  email : String
  familyId : String
deriving DecidableEq, Repr

def ACCESS_TOKEN_TTL_SECONDS : Nat := 15 * 60

/-- The tokens are given by their payloads. -/
structure SessionTokenResult where
  accessToken : UserPayload
  refreshToken : RefreshTokenPayload
  familyId : String
  expiresIn : Nat
  tokenType : String
deriving DecidableEq, Repr

structure World where
  refreshSession : List RefreshSession
  refreshTokenHistory : List RefreshTokenHistory
  /-- the e-mails of the users -/
  user : String → Option String
  redis : RedisKey → Option String
  securityAuditLog : List ReuseDetails

def World.session (w : World) (familyId : String) : Option RefreshSession :=
  w.refreshSession.find? fun row => row.familyId == familyId
def World.token (w : World) (jti : String) : Option RefreshTokenHistory :=
  w.refreshTokenHistory.find? fun row => row.jti == jti

/-- What the transaction of a rotation is given. -/
structure Rotation where
  familyId : String
  userId : String
  jti : String
  newJti : String
  nextCounter : Nat
deriving DecidableEq, Repr

inductive Query where
  | redisGet (key : RedisKey)
  | redisSet (key : RedisKey) (value : String)
  | findSession (familyId : String)
  | findToken (jti : String)
  | findUser (id : String)
  /-- the transaction of `rotateRefreshToken` -/
  | exchange (rotation : Rotation)
  /-- the transaction of `createSessionFamily` -/
  | openFamily (familyId userId jti : String)
  | updateManySession (familyId reason : String)
  | createAuditLog (details : ReuseDetails)
deriving DecidableEq, Repr

abbrev Value : Query → Type
  | .redisGet _ => Option String
  | .findSession _ => Option RefreshSession
  | .findToken _ => Option RefreshTokenHistory
  | .findUser _ => Option String
  | _ => Unit

abbrev Code := Interleaving.Code Query Value
def RefreshTokenHistory.consume (jti : String) (row : RefreshTokenHistory) : RefreshTokenHistory :=
  if row.jti = jti then { row with isConsumed := true } else row

def RefreshSession.advance (rotation : Rotation) (row : RefreshSession) : RefreshSession :=
  if row.familyId = rotation.familyId then
    { row with currentJti := rotation.newJti, rotationCounter := rotation.nextCounter }
  else row

def RefreshSession.revoke (familyId reason : String) (row : RefreshSession) : RefreshSession :=
  if row.familyId = familyId then { row with isRevoked := true, revocationReason := some reason } else row

/-- The new token breaks a unique column. -/
def World.taken (w : World) (rotation : Rotation) : Bool :=
  w.refreshTokenHistory.any (fun row => row.jti == rotation.newJti) ||
    w.refreshSession.any fun row => row.familyId != rotation.familyId && row.currentJti == rotation.newJti

/-- The tables after the transaction of a rotation. -/
def World.exchanged (w : World) (rotation : Rotation) : World :=
  { w with
    refreshTokenHistory := w.refreshTokenHistory.map (RefreshTokenHistory.consume rotation.jti) ++
      [⟨rotation.familyId,rotation.newJti,rotation.userId,rotation.nextCounter,false⟩]
    refreshSession := w.refreshSession.map (RefreshSession.advance rotation) }

def World.opened (w : World) (familyId userId jti : String) : World :=
  { w with
    refreshSession := w.refreshSession ++ [⟨familyId,userId,jti,1,false,none⟩]
    refreshTokenHistory := w.refreshTokenHistory ++ [⟨familyId,jti,userId,1,false⟩] }

def World.setRedis (w : World) (key : RedisKey) (value : Option String) : World :=
  { w with redis := fun other => if other = key then value else w.redis other }

/-- A transaction that fails at one of its statements changes nothing. -/
def exec (w : World) : (q : Query) → Except String (Value q) × World
  | .redisGet key => (.ok (w.redis key),w)
  | .redisSet key value => (.ok (),w.setRedis key (some value))
  | .findSession familyId => (.ok (w.session familyId),w)
  | .findToken jti => (.ok (w.token jti),w)
  | .findUser id => (.ok (w.user id),w)
  | .exchange rotation =>
    if (w.token rotation.jti).isNone || (w.session rotation.familyId).isNone then
      (.error "Record to update not found.",w)
    else if w.taken rotation then (.error "Unique constraint failed",w)
    else (.ok (),w.exchanged rotation)
  | .openFamily familyId userId jti =>
    if w.refreshSession.any (fun row => row.familyId == familyId || row.currentJti == jti) ||
        w.refreshTokenHistory.any (fun row => row.jti == jti) then (.error "Unique constraint failed",w)
    else (.ok (),w.opened familyId userId jti)
  | .updateManySession familyId reason =>
    (.ok (),{ w with refreshSession := w.refreshSession.map (RefreshSession.revoke familyId reason) })
  | .createAuditLog details => (.ok (),{ w with securityAuditLog := w.securityAuditLog ++ [details] })

def SESSION_REVOKED : String := "Session has been revoked. Please sign in again."
def TOKEN_REUSE : String := "Refresh token reuse detected. Session family has been revoked."
def ask (q : Query) : Code (Value q) := query q

/-- `try { ... } catch { }` around calls whose errors are only logged. -/
def attempt (body : Code Unit) : Code Unit := tryCatch body fun _ => pure ()

def isFamilyRevoked (familyId : String) : Code Bool := do
  if familyId = "" then return false
  let cached ← tryCatch (ask (.redisGet (.revoked familyId))) fun _ => pure none
  if cached = some "1" then return true
  let session ← ask (.findSession familyId)
  return (session.map RefreshSession.isRevoked).getD false

def revokeFamily (familyId reason : String) : Code Unit := do
  ask (.updateManySession familyId reason)
  attempt (ask (.redisSet (.revoked familyId) "1"))

/-- The new identifiers are random, so they come with the call. -/
def createSessionFamily (userId email familyId jti : String) : Code SessionTokenResult := do
  ask (.openFamily familyId userId jti)
  attempt (ask (.redisSet (.currentJti familyId) jti))
  return ⟨⟨userId,email,familyId⟩,⟨userId,familyId,1,jti⟩,familyId,ACCESS_TOKEN_TTL_SECONDS,"Bearer"⟩

/-- The end of `rotateRefreshToken` on a token that was presented again. -/
def refuseReuse (decoded : RefreshTokenPayload) (session : RefreshSession) (isAlreadyConsumed isOutdatedJti : Bool) :
    Code SessionTokenResult := do
  revokeFamily decoded.familyId "REPLAY_ATTACK_DETECTED"
  attempt (ask (.createAuditLog ⟨decoded.familyId,decoded.userId,decoded.jti,decoded.rotationCounter,session.currentJti,
    isAlreadyConsumed,isOutdatedJti⟩))
  throw TOKEN_REUSE

/-- The end of `rotateRefreshToken` on a valid token. -/
def rotateValid (decoded : RefreshTokenPayload) (session : RefreshSession) (newJti : String) : Code SessionTokenResult := do
  let nextCounter := session.rotationCounter + 1
  let user ← ask (.findUser decoded.userId)
  let email := user.getD ""
  ask (.exchange ⟨decoded.familyId,decoded.userId,decoded.jti,newJti,nextCounter⟩)
  attempt (do
    ask (.redisSet (.used decoded.jti) "1")
    ask (.redisSet (.currentJti decoded.familyId) newJti))
  return ⟨⟨decoded.userId,email,decoded.familyId⟩,⟨decoded.userId,decoded.familyId,nextCounter,newJti⟩,decoded.familyId,
    ACCESS_TOKEN_TTL_SECONDS,"Bearer"⟩

/-- `rotateRefreshToken` from the lookup of the token's history on. -/
def judgeToken (decoded : RefreshTokenPayload) (session : RefreshSession) (newJti : String) : Code SessionTokenResult := do
  let tokenRecord ← ask (.findToken decoded.jti)
  let isAlreadyConsumed := (tokenRecord.map RefreshTokenHistory.isConsumed).getD false
  let isOutdatedJti := session.currentJti != decoded.jti
  if isAlreadyConsumed || isOutdatedJti then refuseReuse decoded session isAlreadyConsumed isOutdatedJti
  else rotateValid decoded session newJti

/-- `rotateRefreshToken` with the session that was found. -/
def judgeSession (decoded : RefreshTokenPayload) (session : Option RefreshSession) (newJti : String) : Code SessionTokenResult :=
  match session with
  | none => throw SESSION_REVOKED
  | some session => if session.isRevoked then throw SESSION_REVOKED else judgeToken decoded session newJti

/-- None stands for a token that `verifyRefreshToken` refuses. -/
def rotateRefreshToken (token : Option RefreshTokenPayload) (newJti : String) : Code SessionTokenResult :=
  match token with
  | none => throw "Invalid or expired refresh token"
  | some decoded => do
    let revoked ← isFamilyRevoked decoded.familyId
    if revoked then throw SESSION_REVOKED
    else
      let session ← ask (.findSession decoded.familyId)
      judgeSession decoded session newJti

inductive Task where
  | createSessionFamily (userId email familyId jti : String)
  | rotateRefreshToken (token : Option RefreshTokenPayload) (newJti : String)
  | revokeFamily (familyId reason : String)
deriving DecidableEq, Repr

def Task.program : Task → Program Query Value (Except String (Option SessionTokenResult))
  | .createSessionFamily userId email familyId jti =>
    (some <$> SessionManager.createSessionFamily userId email familyId jti : Code (Option SessionTokenResult)).run
  | .rotateRefreshToken token newJti =>
    (some <$> SessionManager.rotateRefreshToken token newJti : Code (Option SessionTokenResult)).run
  | .revokeFamily familyId reason =>
    ((fun _ => none) <$> SessionManager.revokeFamily familyId reason : Code (Option SessionTokenResult)).run

/-- What happens besides the programs: a key of Redis runs out, a user changes the e-mail. -/
inductive Outside where
  | expire (key : RedisKey)
  | changeUser (id : String) (email : Option String)
deriving DecidableEq, Repr

def Outside.apply : Outside → World → World
  | .expire key, w => w.setRedis key none
  | .changeUser id email, w => { w with user := fun other => if other = id then email else w.user other }

abbrev System := Interleaving.System World Query Value (Except String (Option SessionTokenResult))

/-- The programs interleave at every query. -/
def step : System → Input Task Outside → Option (Answered Query Value) × System :=
  Interleaving.step exec Task.program Outside.apply

end StellarAlerts.SessionManager
