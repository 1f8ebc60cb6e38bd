import StellarAlerts.HexText
import StellarAlerts.Registries
import StellarAlerts.SessionManager
import StellarAlerts.StrKey

/-!
Sign-in with a decentralized identifier. Two identifiers whose addresses begin alike are
signed in as one user, all others never are (`same_user_iff`).
-/
namespace StellarAlerts.DidAuth
open Histories Interleaving Registries RemoteCalls StrKey Utf16Text
open IntegerText (isDigits decimal digitValue)

/-! ### Identifiers and challenges -/

/-- How a signature is read into bytes. -/
inductive SignatureEncoding where
  | hex
  | base64
deriving DecidableEq, Repr

structure Platform where
  /-- `toLowerCase` on texts with characters beyond ASCII -/
  otherLowerCase : String → String
  /-- `Number`, rounded down, on texts that are no word of digits below the safe integers; none where it is not finite -/
  otherNumber : String → Option Int
  /-- `Keypair.fromPublicKey(address).verify(message,signature)`; none where it throws -/
  verify : (address message : String) → SignatureEncoding → (signature : String) → Option Bool
  /-- the default of the identifiers of users -/
  cuid : Nat → String
  cuid_injective : Function.Injective cuid

structure ParsedDID where
  method : String
  network : Option String
  address : String
deriving DecidableEq, Repr

def parseDID (did : String) : Except String ParsedDID :=
  if did.toList.take 4 ≠ "did:".toList then .error "Invalid DID format. Must start with \"did:\""
  else
    match did.toList.splitOn ':' with
    | scheme :: name :: third :: rest =>
      let method := String.ofList (scheme ++ ':' :: name)
      if method = "did:pkh" then
        match rest with
        | [] => .ok ⟨"did:pkh",none,String.ofList third⟩
        | rest => .ok ⟨"did:pkh",some (String.ofList third),String.ofList ([':'].intercalate rest)⟩
      else if method = "did:key" then .ok ⟨"did:key",none,String.ofList third⟩
      else .ok ⟨method,none,String.ofList ([':'].intercalate (third :: rest))⟩
    | _ => .error "Malformed DID string"

example : parseDID "did:pkh:eip155:1:0xd8da" = .ok ⟨"did:pkh",some "eip155","1:0xd8da"⟩ := by decide +kernel

structure DIDChallenge where
  did : String
  challenge : String
  expiresAt : Int
deriving DecidableEq, Repr

def DID_CHALLENGE_TTL_MS : Nat := 5 * 60 * 1000

def generateDIDChallenge (did randomBytes : String) (timestamp : Nat) : Except String DIDChallenge := do
  let _ ← parseDID did
  return ⟨did,s!"StellarAlerts-Auth-Challenge:{did}:{randomBytes}:{timestamp}",timestamp + DID_CHALLENGE_TTL_MS⟩

def MAX_SAFE_INTEGER : Nat := 9007199254740991

/-- `Number(text)`, rounded down; none where it is not finite. -/
def Number (p : Platform) (text : String) : Option Int :=
  if isDigits text ∧ decimal text ≤ MAX_SAFE_INTEGER then some (decimal text) else p.otherNumber text

def isDIDChallengeExpired (p : Platform) (now : Int) (challenge : String) : Bool :=
  if ':' ∉ challenge.toList then true
  else
    match Number p (String.ofList (challenge.toList.reverse.takeWhile (· != ':')).reverse) with
    | none => true
    | some issuedAt => (DID_CHALLENGE_TTL_MS : Int) < now - issuedAt

def isValidEd25519PublicKey (value : String) : Bool :=
  match decodeStrKey (.string value) .ed25519PublicKey with
  | .ok _ => true
  | .error _ => false

/-- Texts that pass `/^[0-9a-fA-F]+$/` are read as hex. -/
def encodingOf (signature : String) : SignatureEncoding :=
  if signature ≠ "" ∧ signature.toList.all fun c => (digitValue c).isSome then .hex else .base64

def verifyDIDSignature (p : Platform) (did challenge signature : String) : Except String Bool :=
  if signature = "" ∨ challenge = "" then .ok false
  else
    match parseDID did with
    | .error e => .error e
    | .ok parsed =>
      if parsed.network = some "stellar" ∨ isValidEd25519PublicKey parsed.address then
        .ok ((p.verify parsed.address challenge (encodingOf signature) signature).getD false)
      else .ok (10 < utf16Length signature)

def Platform.toLowerCase (p : Platform) (text : String) : String :=
  if text.toList.all fun c => c.toNat < 128 then HexText.toLowerCase text else p.otherLowerCase text

/-- None where the cut leaves half a character. -/
def syntheticEmail (p : Platform) (parsed : ParsedDID) : Option String :=
  (substring (p.toLowerCase parsed.address) 20).map (· ++ "@did.stellar-alerts.org")

/-! ### Queries -/

/-- The key of a user's row is the e-mail. -/
abbrev User := Row String String

structure World (p : Platform) where
  user : Registry p.cuid String
  /-- the keys `did:challenge:${did}` of Redis, by their DID -/
  challenge : String → Option String
  sessions : SessionManager.World

inductive Query where
  | redisGet (did : String)
  | redisSet (did : String) (challenge : String)
  | redisDel (did : String)
  | upsertUser (email : Option String)
  | session (q : SessionManager.Query)
deriving DecidableEq, Repr

abbrev Value : Query → Type
  | .redisGet _ => Option String
  | .upsertUser _ => User
  | .session q => SessionManager.Value q
  | _ => Unit

abbrev Code := Interleaving.Code Query Value
def World.setChallenge {p : Platform} (w : World p) (did : String) (value : Option String) : World p :=
  { w with challenge := fun other => if other = did then value else w.challenge other }
def World.upsert {p : Platform} (w : World p) (email : String) : Option User × World p :=
  ((w.user.upsert email).1,{ w with user := (w.user.upsert email).2 })

/-- A text that ends in half a character is refused. -/
def exec {p : Platform} (w : World p) : (q : Query) → Except String (Value q) × World p
  | .redisGet did => (.ok (w.challenge did),w)
  | .redisSet did value => (.ok (),w.setChallenge did (some value))
  | .redisDel did => (.ok (),w.setChallenge did none)
  | .upsertUser none => (.error "Invalid text",w)
  | .upsertUser (some email) =>
    match w.upsert email with
    | (none,w') => (.error "Unique constraint failed",w')
    | (some user,w') => (.ok user,w')
  | .session q => ((SessionManager.exec w.sessions q).1,{ w with sessions := (SessionManager.exec w.sessions q).2 })

/-! ### Programs -/

def ask (q : Query) : Code (Value q) := query q
def attempt (body : Code Unit) : Code Unit := tryCatch body fun _ => pure ()
def given {α : Type} (computed : Except String α) : Code α := ExceptT.mk (.returned computed)

/-- The session manager's queries, made from here. -/
def sessionProgram {α : Type} : Program SessionManager.Query SessionManager.Value α → Program Query Value α
  | .returned a => .returned a
  | .call q next => .call (.session q) fun answer => sessionProgram (next answer)

inductive Token where
  | access (payload : SessionManager.UserPayload)
  | refresh (payload : SessionManager.RefreshTokenPayload)
  /-- a token of no family -/
  | legacy (id email : String)
deriving DecidableEq, Repr

structure Session where
  accessToken : Token
  refreshToken : Token
  familyId : String
  expiresIn : Nat
deriving DecidableEq, Repr

structure AuthUser where
  id : String
  email : String
  did : String
deriving DecidableEq, Repr

structure AuthSessionResponse where
  token : Token
  accessToken : Token
  refreshToken : Token
  familyId : String
  expiresIn : Nat
  user : AuthUser
deriving DecidableEq, Repr

def issueSession (userId email familyId jti : String) : Code Session :=
  tryCatch (do
    let session ← ExceptT.mk (sessionProgram (SessionManager.createSessionFamily userId email familyId jti).run)
    return ⟨.access session.accessToken,.refresh session.refreshToken,session.familyId,session.expiresIn⟩)
    fun _ => return ⟨.legacy userId email,.legacy userId email,"legacy",900⟩

def requestDIDChallenge (did randomBytes : String) (timestamp : Nat) : Code DIDChallenge := do
  let challenge ← given (generateDIDChallenge did randomBytes timestamp)
  attempt (ask (.redisSet did challenge.challenge))
  return challenge

/-- `verifyDIDAuth` from the parsing of the DID on. -/
def signIn (p : Platform) (did challenge signature familyId jti : String) : Code AuthSessionResponse := do
  let parsed ← given (parseDID did)
  let isValid ← given (verifyDIDSignature p did challenge signature)
  if !isValid then throw "Invalid DID challenge signature"
  else
    attempt (ask (.redisDel did))
    let user ← ask (.upsertUser (syntheticEmail p parsed))
    let session ← issueSession user.id user.key familyId jti
    return ⟨session.accessToken,session.accessToken,session.refreshToken,session.familyId,session.expiresIn,
      ⟨user.id,user.key,did⟩⟩

def CHALLENGE_EXPIRED : String := "DID challenge expired or not requested"

/-- The clock and the random identifiers come with the call. -/
def verifyDIDAuth (p : Platform) (did challenge signature : String) (now : Int) (familyId jti : String) :
    Code AuthSessionResponse := do
  let storedChallenge ← tryCatch (ask (.redisGet did)) fun _ => pure none
  if storedChallenge.getD "" = "" then throw CHALLENGE_EXPIRED
  else if storedChallenge ≠ some challenge then throw "DID challenge does not match the one that was issued"
  else if isDIDChallengeExpired p now challenge then
    attempt (ask (.redisDel did))
    throw CHALLENGE_EXPIRED
  else signIn p did challenge signature familyId jti

/-! ### The system -/

inductive Task where
  | requestDIDChallenge (did randomBytes : String) (timestamp : Nat)
  | verifyDIDAuth (did challenge signature : String) (now : Int) (familyId jti : String)
deriving DecidableEq, Repr

inductive Reply where
  | challenge (challenge : DIDChallenge)
  | session (response : AuthSessionResponse)
deriving DecidableEq, Repr

def Task.program (p : Platform) : Task → Program Query Value (Except String Reply)
  | .requestDIDChallenge did randomBytes timestamp =>
    (.challenge <$> DidAuth.requestDIDChallenge did randomBytes timestamp : Code Reply).run
  | .verifyDIDAuth did challenge signature now familyId jti =>
    (.session <$> DidAuth.verifyDIDAuth p did challenge signature now familyId jti : Code Reply).run

/-- What happens besides: keys of Redis run out, users sign in by other ways, accounts are deleted, sessions are used. -/
inductive Outside where
  | expire (did : String)
  | upsertUser (email : String)
  | deleteUser (id : String)
  | useSessions (sessions : SessionManager.World)

def Outside.apply {p : Platform} : Outside → World p → World p
  | .expire did, w => w.setChallenge did none
  | .upsertUser email, w => (w.upsert email).2
  | .deleteUser id, w => { w with user := w.user.remove id }
  | .useSessions sessions, w => { w with sessions := sessions }

abbrev System (p : Platform) := Interleaving.System (World p) Query Value (Except String Reply)

/-- The programs interleave at every query. -/
def step (p : Platform) : System p → Input Task Outside → Option (Answered Query Value) × System p :=
  Interleaving.step exec (Task.program p) Outside.apply

/-! ### Whom a call has signed in -/

/-- The e-mail that a call has asked for and the user that it was given. -/
abbrev SignedIn := Option (Option String × User)

def signedAfter : SignedIn → (q : Query) → Except String (Value q) → SignedIn
  | _, .upsertUser email, .ok user => some (email,user)
  | signed, _, _ => signed

/-- A response names the user that the call was given for the e-mail of its DID. -/
def signedEnded (p : Platform) (ended : Except String Reply) (signed : SignedIn) : Prop :=
  ∀ response, ended = .ok (.session response) → ∃ parsed user, parseDID response.user.did = .ok parsed ∧
    signed = some (syntheticEmail p parsed,user) ∧ response.user.id = user.id ∧ response.user.email = user.key

section Programs
variable {p : Platform} {signed : SignedIn}

theorem signedEnded_error (p : Platform) (e : String) (signed : SignedIn) : signedEnded p (.error e) signed := by
  intro response same
  cases same

theorem sessionProgram_signed {α : Type} {post : α → SignedIn → Prop} (fine : ∀ a, post a signed)
    (program : Program SessionManager.Query SessionManager.Value α) :
    Follows (fun _ _ => True) signedAfter post signed (sessionProgram program) := by
  induction program with
  | returned a => exact fine a
  | call q next ih => exact ⟨trivial,fun answer => ih answer⟩

theorem issueSession_signed {post : Except String Session → SignedIn → Prop} (fine : ∀ session, post (.ok session) signed)
    (userId email familyId jti : String) :
    Follows (fun _ _ => True) signedAfter post signed (issueSession userId email familyId jti).run := by
  refine follows_tryCatch.mpr (follows_bindCode.mpr (sessionProgram_signed (fun ended => ?_) _))
  cases ended with
  | error e => exact fine _
  | ok session => exact fine _

theorem signIn_signed (did challenge signature familyId jti : String) :
    Follows (fun _ _ => True) signedAfter (fun ended => signedEnded p (ended.map .session)) none
      (signIn p did challenge signature familyId jti).run := by
  refine follows_bindCode.mpr ?_
  cases parsed : parseDID did with
  | error e => exact signedEnded_error p e _
  | ok parsedDid =>
    refine follows_bindCode.mpr ?_
    cases verifyDIDSignature p did challenge signature with
    | error e => exact signedEnded_error p e _
    | ok isValid =>
      cases isValid with
      | false => exact signedEnded_error p _ _
      | true =>
        refine follows_bindCode.mpr (follows_caught.mpr ⟨trivial,fun _ => ?_⟩)
        refine follows_bindCode.mpr ⟨trivial,fun answer => ?_⟩
        cases answer with
        | error e => exact signedEnded_error p e _
        | ok user =>
          refine follows_bindCode.mpr (issueSession_signed (fun session => ?_) ..)
          rintro response ⟨⟩
          exact ⟨parsedDid,user,parsed,rfl,rfl,rfl⟩

theorem program_signed (task : Task) :
    Follows (fun _ _ => True) signedAfter (signedEnded p) none (task.program p) := by
  cases task with
  | requestDIDChallenge did randomBytes timestamp =>
    refine follows_map.mpr (follows_bindCode.mpr ?_)
    cases generateDIDChallenge did randomBytes timestamp with
    | error e => exact signedEnded_error p e _
    | ok challenge =>
      refine follows_bindCode.mpr (follows_caught.mpr ⟨trivial,fun _ => ?_⟩)
      rintro response ⟨⟩
  | verifyDIDAuth did challenge signature now familyId jti =>
    refine follows_map.mpr (follows_bindCode.mpr (follows_tryCatch.mpr ⟨trivial,fun answer => ?_⟩))
    have checked : ∀ storedChallenge : Option String, Follows (fun _ _ => True) signedAfter
        (fun ended => signedEnded p (ended.map .session)) none
        (if storedChallenge.getD "" = "" then throw CHALLENGE_EXPIRED
        else if storedChallenge ≠ some challenge then throw "DID challenge does not match the one that was issued"
        else if isDIDChallengeExpired p now challenge then do
          attempt (ask (.redisDel did))
          throw CHALLENGE_EXPIRED
        else signIn p did challenge signature familyId jti : Code AuthSessionResponse).run := by
      intro storedChallenge
      split_ifs
      · exact signedEnded_error p _ _
      · exact signedEnded_error p _ _
      · exact follows_bindCode.mpr (follows_caught.mpr ⟨trivial,fun _ => signedEnded_error p _ _⟩)
      · exact signIn_signed ..
    cases answer with
    | error e => exact checked none
    | ok stored => exact checked stored

end Programs

section Users
variable {p : Platform} {w w' : World p} {places : Nat → Option SignedIn}

/-- The users that the calls were given: each for the e-mail that it has, none with the identifier of
    another, and all of them in the table where accounts stay. -/
structure Identified (stays : Prop) (w : World p) (places : Nat → Option SignedIn) : Prop where
  asked : ∀ c email user, places c = some (some (email,user)) → email = some user.key
  known : ∀ c email user, places c = some (some (email,user)) → w.user.Known user
  apart : ∀ c d email email' user user', places c = some (some (email,user)) → places d = some (some (email',user')) →
    user.id = user'.id → user = user'
  present : stays → ∀ c email user, places c = some (some (email,user)) → user ∈ w.user.table.rows

variable {stays : Prop}

theorem identified_update (identified : Identified stays w places) (known : ∀ user, w.user.Known user → w'.user.Known user)
    (present : stays → ∀ user ∈ w.user.table.rows, user ∈ w'.user.table.rows) {c : Nat} {new : Option SignedIn}
    (moves : ∀ email user, new = some (some (email,user)) → places c = new ∨ email = some user.key ∧ user ∈ w'.user.table.rows) :
    Identified stays w' (Function.update places c new) := by
  -- every user after the move was there before or is in the table
  have sources : ∀ d email user, Function.update places c new d = some (some (email,user)) →
      (∃ d, places d = some (some (email,user))) ∨ email = some user.key ∧ user ∈ w'.user.table.rows := by
    intro d email user held
    by_cases own : d = c
    · subst own
      rw [Function.update_self] at held
      rcases moves email user held with same | given
      · exact .inl ⟨d,same.trans held⟩
      · exact .inr given
    · rw [Function.update_of_ne own] at held
      exact .inl ⟨d,held⟩
  refine ⟨?_,?_,?_,?_⟩
  · intro d email user held
    rcases sources d email user held with ⟨d,before⟩ | ⟨asked,_⟩
    · exact identified.asked d email user before
    · exact asked
  · intro d email user held
    rcases sources d email user held with ⟨d,before⟩ | ⟨_,listed⟩
    · exact known user (identified.known d email user before)
    · exact known_of_mem listed
  · intro d d' email email' user user' held held' same
    rcases sources d email user held with ⟨d,before⟩ | ⟨_,listed⟩
    · rcases sources d' email' user' held' with ⟨d',before'⟩ | ⟨_,listed'⟩
      · exact identified.apart d d' email email' user user' before before' same
      · exact ((known user (identified.known d email user before)).2 user' listed' same.symm).symm
    · rcases sources d' email' user' held' with ⟨d',before'⟩ | ⟨_,listed'⟩
      · exact (known user' (identified.known d' email' user' before')).2 user listed same
      · exact eq_of_id listed listed' same
  · intro staying d email user held
    rcases sources d email user held with ⟨d,before⟩ | ⟨_,listed⟩
    · exact present staying user (identified.present staying d email user before)
    · exact listed

theorem exec_upsert (w : World p) (email : String) :
    (exec w (.upsertUser (some email))).2.user = (w.user.upsert email).2 ∧
      ∀ user, (exec w (.upsertUser (some email))).1 = .ok user → (w.user.upsert email).1 = some user := by
  simp only [exec,World.upsert]
  cases answer : (w.user.upsert email).1 with
  | none => exact ⟨rfl,fun user same => by cases same⟩
  | some found => exact ⟨rfl,fun user same => by rw [Except.ok.inj same]⟩

theorem exec_known (q : Query) {user : User} (known : w.user.Known user) : (exec w q).2.user.Known user := by
  cases q with
  | upsertUser email =>
    cases email with
    | none => exact known
    | some email =>
      rw [(exec_upsert w email).1]
      exact upsert_known p.cuid_injective known email
  | redisGet _ | redisSet _ _ | redisDel _ | session _ => exact known

theorem exec_present (q : Query) {user : User} (listed : user ∈ w.user.table.rows) : user ∈ (exec w q).2.user.table.rows := by
  cases q with
  | upsertUser email =>
    cases email with
    | none => exact listed
    | some email =>
      rw [(exec_upsert w email).1]
      exact mem_upsert listed email
  | redisGet _ | redisSet _ _ | redisDel _ | session _ => exact listed

theorem exec_signed (w : World p) (q : Query) (signed : SignedIn) :
    signedAfter signed q (exec w q).1 = signed ∨
      ∃ user, signedAfter signed q (exec w q).1 = some (some user.key,user) ∧ user ∈ (exec w q).2.user.table.rows := by
  cases q with
  | upsertUser email =>
    cases email with
    | none => exact .inl rfl
    | some email =>
      cases answer : (exec w (.upsertUser (some email))).1 with
      | error e => exact .inl rfl
      | ok user =>
        obtain ⟨tableIs,answers⟩ := exec_upsert w email
        obtain ⟨listed,keyIs⟩ := upsert_answer (answers user answer)
        right
        exact ⟨user,by rw [keyIs]; rfl,by rw [tableIs]; exact listed⟩
  | redisGet _ | redisSet _ _ | redisDel _ | session _ => exact .inl rfl

theorem signedAfter_error (signed : SignedIn) (q : Query) (e : String) : signedAfter signed q (.error e) = signed := by
  cases q <;> rfl

theorem identified_outside (identified : Identified stays w places) {o : Outside} (kept : stays → ∀ id, o ≠ .deleteUser id) :
    Identified stays (o.apply w) places := by
  cases o with
  | expire did => exact ⟨identified.asked,identified.known,identified.apart,identified.present⟩
  | useSessions sessions => exact ⟨identified.asked,identified.known,identified.apart,identified.present⟩
  | upsertUser email =>
    exact ⟨identified.asked,fun c asked user held => upsert_known p.cuid_injective (identified.known c asked user held) email,
      identified.apart,fun staying c asked user held => mem_upsert (identified.present staying c asked user held) email⟩
  | deleteUser id =>
    exact ⟨identified.asked,fun c asked user held => remove_known (identified.known c asked user held) id,
      identified.apart,fun staying => absurd rfl (kept staying id)⟩

theorem identified_step {s : System p} (placed : Placed (fun _ _ => True) signedAfter (signedEnded p) none s)
    (identified : Identified stays s.world (s.places signedAfter none)) {i : Input Task Outside}
    (kept : stays → ∀ id, i ≠ .outside (.deleteUser id)) :
    Identified stays (step p s i).2.world ((step p s i).2.places signedAfter none) := by
  rcases placed_cases placed i with same | ⟨c,task,_,_,_,world,places⟩ | ⟨c,outcome,signed,q,_,_,standing,_,_,world,places⟩ |
    ⟨c,_,_,world,places⟩ | ⟨o,rfl,_,world,places⟩
  · rw [step,same]
    exact identified
  · rw [step,world,places]
    exact identified_update identified (fun _ => id) (fun _ _ => id) fun email user new => by cases new
  · rw [step,world,places]
    cases outcome with
    | failed message =>
      rw [respond,signedAfter_error]
      exact identified_update identified (fun _ => id) (fun _ _ => id) fun email user new => .inl standing
    | lost message =>
      rw [respond,signedAfter_error]
      exact identified_update identified (fun _ => exec_known q) (fun _ _ => exec_present q) fun email user new => .inl standing
    | ok =>
      refine identified_update identified (fun _ => exec_known q) (fun _ _ => exec_present q) fun email user new => ?_
      simp only [respond] at new ⊢
      rcases exec_signed s.world q signed with same | ⟨given,signedIs,listed⟩
      · rw [same]
        exact .inl standing
      · rw [signedIs] at new
        cases new
        exact .inr ⟨rfl,listed⟩
  · rw [step,world,places]
    exact identified_update identified (fun _ => id) (fun _ _ => id) fun email user new => by cases new
  · rw [step,world,places]
    exact identified_outside identified fun staying id same => kept staying id (by rw [same])

theorem run_identified {stays : Prop} (w : World p) {inputs : List (Input Task Outside)}
    (kept : stays → ∀ id, .outside (.deleteUser id) ∉ inputs) :
    Identified stays (run (step p) (System.start w) inputs).world
      ((run (step p) (System.start w) inputs).places signedAfter none) := by
  have nobody : ∀ c email user, (System.start w : System p).places signedAfter none c ≠ some (some (email,user)) := by
    intro c email user held
    cases held
  have start : Identified stays w ((System.start w : System p).places signedAfter none) :=
    ⟨fun c email user held => absurd held (nobody c email user),fun c email user held => absurd held (nobody c email user),
      fun c _ email _ user _ held => absurd held (nobody c email user),
      fun _ c email user held => absurd held (nobody c email user)⟩
  refine (@run_inv_of_mem (System p) _ _ (step p) (fun s => Placed (fun _ _ => True) signedAfter (signedEnded p) none s ∧
    Identified stays s.world (s.places signedAfter none)) inputs ?_ _ ⟨placed_start w,start⟩).2
  rintro s i listed ⟨placed,identified⟩
  exact ⟨placed_step program_signed placed i,
    identified_step placed identified fun staying id same => kept staying id (same ▸ listed)⟩

end Users

/-! ### One user for several identifiers -/

/-- The addresses differ in one of the first twenty units of their lower case. -/
def Apart (p : Platform) (did did' : String) : Prop :=
  ∀ parsed parsed', parseDID did = .ok parsed → parseDID did' = .ok parsed' →
    ∃ i < 20, (encode (p.toLowerCase parsed.address).toList)[i]? ≠ (encode (p.toLowerCase parsed'.address).toList)[i]?

theorem take_eq_iff {α : Type} {a b : List α} {count : Nat} : a.take count = b.take count ↔ ∀ i < count, a[i]? = b[i]? := by
  constructor
  · intro same i below
    have there := congrArg (fun l => l[i]?) same
    simpa [List.getElem?_take,below] using there
  · intro same
    refine List.ext_getElem? fun i => ?_
    by_cases below : i < count
    · simpa [List.getElem?_take,below] using same i below
    · simp [below]

theorem syntheticEmail_eq_iff {p : Platform} {did did' email email' : String} {parsed parsed' : ParsedDID}
    (parsedIs : parseDID did = .ok parsed) (parsedIs' : parseDID did' = .ok parsed')
    (emailIs : syntheticEmail p parsed = some email) (emailIs' : syntheticEmail p parsed' = some email') :
    email = email' ↔ ¬ Apart p did did' := by
  obtain ⟨start,cut,rfl⟩ := Option.map_eq_some_iff.mp emailIs
  obtain ⟨start',cut',rfl⟩ := Option.map_eq_some_iff.mp emailIs'
  have starts : start ++ "@did.stellar-alerts.org" = start' ++ "@did.stellar-alerts.org" ↔ start = start' := by
    rw [← String.toList_inj,String.toList_append,String.toList_append,List.append_cancel_right_eq,String.toList_inj]
  rw [starts,substring_eq_iff cut cut',take_eq_iff]
  constructor
  · rintro alike apart
    obtain ⟨i,below,differ⟩ := apart parsed parsed' parsedIs parsedIs'
    exact differ (alike i below)
  · intro alike i below
    by_contra differ
    refine alike fun other other' otherIs otherIs' => ⟨i,below,?_⟩
    rw [parsedIs] at otherIs
    rw [parsedIs'] at otherIs'
    cases otherIs
    cases otherIs'
    exact differ

/-- In every run two calls that have signed in DIDs of addresses that begin differently have signed in
    different users; where no account is deleted, DIDs of addresses that begin alike are the same user. -/
theorem same_user_iff (p : Platform) (w : World p) (inputs : List (Input Task Outside)) {c d : Nat}
    {response response' : AuthSessionResponse}
    (first : (run (step p) (System.start w) inputs).returned c = some (.ok (.session response)))
    (second : (run (step p) (System.start w) inputs).returned d = some (.ok (.session response'))) :
    (response.user.did = response'.user.did ∨ Apart p response.user.did response'.user.did →
      response.user.id = response'.user.id → response.user.did = response'.user.did) ∧
    ((∀ id, .outside (.deleteUser id) ∉ inputs) →
      ((response.user.id = response'.user.id → response.user.did = response'.user.did) ↔
        response.user.did = response'.user.did ∨ Apart p response.user.did response'.user.did)) := by
  obtain ⟨made,thread⟩ := thread_of_returned first
  obtain ⟨made',thread'⟩ := thread_of_returned second
  have placed := @run_placed _ _ _ _ _ _ _ (fun _ _ => True) signedAfter (signedEnded p) none exec (Task.program p)
    Outside.apply program_signed w inputs
  obtain ⟨parsed,user,parsedIs,signed,idIs,_⟩ := placed c _ thread response rfl
  obtain ⟨parsed',user',parsedIs',signed',idIs',_⟩ := placed d _ thread' response' rfl
  have held : (run (step p) (System.start w) inputs).places signedAfter none c = some (some (syntheticEmail p parsed,user)) := by
    rw [System.places,thread,Option.map_some,signed]
  have held' : (run (step p) (System.start w) inputs).places signedAfter none d =
      some (some (syntheticEmail p parsed',user')) := by
    rw [System.places,thread',Option.map_some,signed']
  rw [idIs,idIs']
  have identified := @run_identified p False w inputs fun never => never.elim
  have emails := syntheticEmail_eq_iff parsedIs parsedIs' (identified.asked c _ user held) (identified.asked d _ user' held')
  have separate : response.user.did = response'.user.did ∨ Apart p response.user.did response'.user.did →
      user.id = user'.id → response.user.did = response'.user.did := by
    rintro (same | apart) sameId
    · exact same
    · have sameUser := identified.apart c d _ _ user user' held held' sameId
      exact absurd apart (emails.mp (by rw [sameUser]))
  refine ⟨separate,fun kept => ⟨fun once => ?_,separate⟩⟩
  have staying := @run_identified p True w inputs fun _ => kept
  by_cases apart : Apart p response.user.did response'.user.did
  · exact .inr apart
  · refine .inl (once ?_)
    have listed := staying.present trivial c _ user held
    have listed' := staying.present trivial d _ user' held'
    rw [eq_of_key listed listed' (emails.mpr apart)]

/-! ### Two identifiers at once -/

theorem repeated_injective (a b : Nat) (same : String.ofList (List.replicate (a + 1) 'c') = String.ofList (List.replicate (b + 1) 'c')) :
    a = b := by simpa using congrArg String.length same

def plain : Platform where
  otherLowerCase := id
  otherNumber _ := none
  verify _ _ _ _ := none
  cuid n := String.ofList (List.replicate (n + 1) 'c')
  cuid_injective := repeated_injective

def nobody : World plain := ⟨Registry.empty,fun _ => none,⟨[],[],fun _ => none,fun _ => none,[]⟩⟩

def signsIn (c : Nat) (did familyId jti : String) : List (Input Task Outside) :=
  .start c (.requestDIDChallenge did "00ff" 1000) :: .proceed c .ok ::
    .start c (.verifyDIDAuth did s!"StellarAlerts-Auth-Challenge:{did}:00ff:1000" "0123456789a" 2000 familyId jti) ::
    List.replicate 5 (.proceed c .ok)

def keyDid : String := "did:key:z6MkpTHR8VNsBxYAAWHut2"

/-- Its address has the same twenty first letters. -/
def alikeDid : String := "did:key:z6MkpTHR8VNsBxYAAWHuZ7"

def otherDid : String := "did:key:z6Mkf5rGMoatrSj1f4Cyvu"

def signedResponse (userId email did familyId jti : String) : AuthSessionResponse :=
  ⟨.access ⟨userId,email,familyId⟩,.access ⟨userId,email,familyId⟩,.refresh ⟨userId,familyId,1,jti⟩,familyId,900,
    ⟨userId,email,did⟩⟩

def threeSignIns : List (Input Task Outside) :=
  signsIn 0 keyDid "f" "i" ++ signsIn 1 otherDid "g" "j" ++ signsIn 2 alikeDid "h" "k"
def keyEmail : String := "z6mkpthr8vnsbxyaawhu@did.stellar-alerts.org"
def otherEmail : String := "z6mkf5rgmoatrsj1f4cy@did.stellar-alerts.org"

theorem threeSignIns_returned :
    (run (step plain) (System.start nobody) threeSignIns).returned 0 =
      some (.ok (.session (signedResponse "c" keyEmail keyDid "f" "i"))) ∧
    (run (step plain) (System.start nobody) threeSignIns).returned 1 =
      some (.ok (.session (signedResponse "cc" otherEmail otherDid "g" "j"))) ∧
    (run (step plain) (System.start nobody) threeSignIns).returned 2 =
      some (.ok (.session (signedResponse "c" keyEmail alikeDid "h" "k"))) := by
  decide +kernel

theorem keyDid_apart_otherDid : Apart plain keyDid otherDid := by
  intro parsed parsed' parsedIs parsedIs'
  have key : parseDID keyDid = .ok ⟨"did:key",none,"z6MkpTHR8VNsBxYAAWHut2"⟩ := by decide +kernel
  have other : parseDID otherDid = .ok ⟨"did:key",none,"z6Mkf5rGMoatrSj1f4Cyvu"⟩ := by
    decide +kernel
  rw [key] at parsedIs
  rw [other] at parsedIs'
  cases parsedIs
  cases parsedIs'
  exact ⟨4,by decide,by decide +kernel⟩

theorem same_user_iff_apart :
    ∃ response response' : AuthSessionResponse, response.user.did = keyDid ∧ response'.user.did = otherDid ∧
      (run (step plain) (System.start nobody) threeSignIns).returned 0 = some (.ok (.session response)) ∧
      (run (step plain) (System.start nobody) threeSignIns).returned 1 = some (.ok (.session response')) ∧
      response.user.id ≠ response'.user.id := by
  obtain ⟨first,second,_⟩ := threeSignIns_returned
  refine ⟨_,_,rfl,rfl,first,second,fun sameId => ?_⟩
  have sameDid : keyDid = otherDid :=
    (same_user_iff plain nobody threeSignIns first second).1 (.inr keyDid_apart_otherDid) sameId
  exact absurd sameDid (by decide +kernel)

/-- Two DIDs whose addresses begin alike are signed in as one user. -/
theorem dids_share_user :
    ¬ ∀ (p : Platform) (w : World p) (inputs : List (Input Task Outside)) (c d : Nat) (response response' : AuthSessionResponse),
      (run (step p) (System.start w) inputs).returned c = some (.ok (.session response)) →
      (run (step p) (System.start w) inputs).returned d = some (.ok (.session response')) →
      response.user.id = response'.user.id → response.user.did = response'.user.did := by
  intro always
  obtain ⟨first,_,third⟩ := threeSignIns_returned
  have sameDid : keyDid = alikeDid := always plain nobody threeSignIns 0 2 _ _ first third rfl
  exact absurd sameDid (by decide +kernel)

end StellarAlerts.DidAuth
