import StellarAlerts.DidAuth

/-!
What a sign-in with a decentralized identifier takes. The signature is checked with a
key only where the DID names one (`KeyChecked`); a challenge is used up once as long as
no two calls have it in hand and its deletion is carried out (`challenge_used_once`).
-/
namespace StellarAlerts.DidAuth
open Histories
open Interleaving hiding step
open Registries (Registry)
open RemoteCalls Utf16Text
open IntegerText (isDigits decimal decimal_toString isDigits_iff)

/-! ### Challenges -/

def Generated (did challenge : String) (timestamp : Nat) : Prop :=
  ∃ randomBytes, generateDIDChallenge did randomBytes timestamp = .ok ⟨did,challenge,timestamp + DID_CHALLENGE_TTL_MS⟩

variable {did : String}

theorem generated_of_ok {randomBytes : String} {timestamp : Nat} {challenge : DIDChallenge}
    (made : generateDIDChallenge did randomBytes timestamp = .ok challenge) :
    Generated did challenge.challenge timestamp := by
  refine ⟨randomBytes,?_⟩
  rw [made]
  unfold generateDIDChallenge at made
  cases parsed : parseDID did with
  | error e =>
    rw [parsed] at made
    cases made
  | ok parsedDid =>
    rw [parsed] at made
    cases made
    rfl

variable {p : Platform} {challenge : String}

theorem generated_expired {timestamp : Nat} {now : Int} (generated : Generated did challenge timestamp)
    (safe : timestamp ≤ MAX_SAFE_INTEGER) :
    isDIDChallengeExpired p now challenge = decide (timestamp + (DID_CHALLENGE_TTL_MS : Int) < now) := by
  obtain ⟨randomBytes,made⟩ := generated
  have text : challenge = s!"StellarAlerts-Auth-Challenge:{did}:{randomBytes}:{timestamp}" := by
    unfold generateDIDChallenge at made
    cases parsed : parseDID did with
    | error e =>
      rw [parsed] at made
      cases made
    | ok parsedDid =>
      rw [parsed] at made
      cases made
      rfl
  obtain ⟨digits,value⟩ := decimal_toString timestamp
  have noColon : ∀ c ∈ (toString timestamp).toList.reverse, (c != ':') = true := by
    intro c listed
    have digit := (isDigits_iff.mp digits).2 c (List.mem_reverse.mp listed)
    rw [bne_iff_ne]
    rintro rfl
    exact absurd digit (by decide)
  have shape : challenge.toList = (s!"StellarAlerts-Auth-Challenge:{did}:{randomBytes}").toList ++ ':' ::
      (toString timestamp).toList := by
    have colon : (toString ":").toList = [':'] := rfl
    rw [text]
    simp [String.toList_append,colon]
  have last : (challenge.toList.reverse.takeWhile (· != ':')).reverse = (toString timestamp).toList := by
    rw [shape,List.reverse_append,List.reverse_cons,List.append_assoc,List.takeWhile_append_of_pos noColon]
    simp
  have colon : ':' ∈ challenge.toList := by simp [shape]
  unfold isDIDChallengeExpired
  rw [if_neg (not_not.mpr colon),last,String.ofList_toList,Number,if_pos ⟨digits,by rw [value]; exact safe⟩,value]
  refine decide_eq_decide.mpr ?_
  omega

/-- `verifyDIDSignature` checks the signature with the key of the address. -/
def KeyChecked (did : String) : Prop :=
  ∃ parsed, parseDID did = .ok parsed ∧ (parsed.network = some "stellar" ∨ isValidEd25519PublicKey parsed.address = true)

def KeySigned (p : Platform) (did challenge signature : String) : Prop :=
  ∃ parsed, parseDID did = .ok parsed ∧
    p.verify parsed.address challenge (encodingOf signature) signature = some true

theorem keySigned_of_verified {signature : String} (verified : verifyDIDSignature p did challenge signature = .ok true)
    (checked : KeyChecked did) : KeySigned p did challenge signature := by
  obtain ⟨parsed,parsedIs,keyed⟩ := checked
  refine ⟨parsed,parsedIs,?_⟩
  unfold verifyDIDSignature at verified
  by_cases empty : signature = "" ∨ challenge = ""
  · simp [empty] at verified
  · simp only [empty,↓reduceIte,parsedIs] at verified
    rw [if_pos (by simpa using keyed)] at verified
    injection verified with accepted
    cases answer : p.verify parsed.address challenge (encodingOf signature) signature with
    | none => simp [answer] at accepted
    | some accepts => simpa [answer] using accepted

/-! ### The calls of a sign-in -/

/-- `verifyDIDAuth` from the challenge on that was found. -/
def judge (p : Platform) (did challenge signature : String) (now : Int) (familyId jti : String)
    (storedChallenge : Option String) : Code AuthSessionResponse := do
  if storedChallenge.getD "" = "" then throw CHALLENGE_EXPIRED
  else if storedChallenge ≠ some challenge then throw "DID challenge does not match the one that was issued"
  else if isDIDChallengeExpired p now challenge then
    attempt (ask (.redisDel did))
    throw CHALLENGE_EXPIRED
  else signIn p did challenge signature familyId jti

def replying (x : Code AuthSessionResponse) : Program Query Value (Except String Reply) := (Reply.session <$> x : Code Reply).run

/-- The end of a sign-in, with the user that was found. -/
def welcome (did familyId jti : String) : Except String User → Program Query Value (Except String Reply)
  | .error e => .returned (.error e)
  | .ok user => replying do
    let session ← issueSession user.id user.key familyId jti
    return ⟨session.accessToken,session.accessToken,session.refreshToken,session.familyId,session.expiresIn,
      ⟨user.id,user.key,did⟩⟩

section Shapes
variable {p : Platform} {did challenge signature : String} {now : Int} {familyId jti : String}

theorem verify_program : Task.program p (.verifyDIDAuth did challenge signature now familyId jti) =
    .call (.redisGet did) fun answer => replying (judge p did challenge signature now familyId jti answer.toOption.join) := by
  change Program.call (Query.redisGet did) _ = _
  congr 1
  funext answer
  cases answer with
  | error e => rfl
  | ok stored => rfl

theorem answer_of_stored {answer : Except String (Option String)} (stored : answer.toOption.join = some challenge) :
    answer = .ok (some challenge) := by
  cases answer with
  | error e => cases stored
  | ok found => exact congrArg Except.ok stored

theorem judge_cases (stored : Option String) :
    (∃ e, replying (judge p did challenge signature now familyId jti stored) = .returned (.error e)) ∨
    (stored = some challenge ∧ replying (judge p did challenge signature now familyId jti stored) =
      .call (.redisDel did) fun _ => .returned (.error CHALLENGE_EXPIRED)) ∨
    (stored = some challenge ∧ isDIDChallengeExpired p now challenge = false ∧
      verifyDIDSignature p did challenge signature = .ok true ∧
      ∃ email, replying (judge p did challenge signature now familyId jti stored) =
        .call (.redisDel did) fun _ => .call (.upsertUser email) (welcome did familyId jti)) := by
  unfold judge
  by_cases empty : stored.getD "" = ""
  · rw [if_pos empty]
    exact .inl ⟨_,rfl⟩
  by_cases other : stored ≠ some challenge
  · rw [if_neg empty,if_pos other]
    exact .inl ⟨_,rfl⟩
  have same : stored = some challenge := not_not.mp other
  rw [if_neg empty,if_neg other]
  cases expired : isDIDChallengeExpired p now challenge with
  | true =>
    refine .inr (.inl ⟨same,?_⟩)
    change Program.call (Query.redisDel did) _ = _
    congr 1
    funext answer
    cases answer <;> rfl
  | false =>
    rw [if_neg Bool.false_ne_true,signIn]
    cases parseDID did with
    | error e => exact .inl ⟨e,rfl⟩
    | ok parsed =>
      cases verified : verifyDIDSignature p did challenge signature with
      | error e => exact .inl ⟨e,rfl⟩
      | ok isValid =>
        cases isValid with
        | false => exact .inl ⟨_,rfl⟩
        | true =>
          have asks : replying (do
              let user ← ask (.upsertUser (syntheticEmail p parsed))
              let session ← issueSession user.id user.key familyId jti
              return ⟨session.accessToken,session.accessToken,session.refreshToken,session.familyId,session.expiresIn,
                ⟨user.id,user.key,did⟩⟩) = .call (.upsertUser (syntheticEmail p parsed)) (welcome did familyId jti) := by
            change Program.call (Query.upsertUser (syntheticEmail p parsed)) _ = _
            congr 1
            funext found
            cases found <;> rfl
          refine .inr (.inr ⟨same,rfl,rfl,syntheticEmail p parsed,?_⟩)
          change Program.call (Query.redisDel did) _ = _
          congr 1
          funext answer
          cases answer with
          | error e => exact asks
          | ok _ => exact asks

end Shapes

/-! ### Where the calls stand -/

/-- A call has read nothing yet, it has read the challenge of a DID, or it has asked to delete it. -/
inductive Place where
  | fresh
  | read (did challenge : String)
  | done
deriving DecidableEq, Repr

def placeAfter : Place → (q : Query) → Except String (Value q) → Place
  | .fresh, .redisGet did, .ok (some challenge) => .read did challenge
  | .read _ _, .redisDel _, _ => .done
  | place, _, _ => place

def placeAllowed : Place → Query → Prop
  | .fresh, .redisGet _ => True
  | .fresh, .redisSet did challenge => ∃ timestamp, Generated did challenge timestamp
  | .read did _, .redisDel other => other = did
  | .done, .upsertUser _ => True
  | .done, .session _ => True
  | _, _ => False

def anyEnd {α : Type} (_ : α) (_ : Place) : Prop := True

section Places
variable {p : Platform}

theorem sessionProgram_placed {α : Type} {post : α → Place → Prop} (fine : ∀ a, post a .done)
    (program : Program SessionManager.Query SessionManager.Value α) :
    Follows placeAllowed placeAfter post .done (sessionProgram program) := by
  induction program with
  | returned a => exact fine a
  | call q next ih => exact ⟨trivial,fun answer => ih answer⟩

theorem welcome_placed (did familyId jti : String) (answer : Except String User) :
    Follows placeAllowed placeAfter anyEnd .done (welcome did familyId jti answer) := by
  cases answer with
  | error e => exact trivial
  | ok user =>
    refine follows_map.mpr (follows_bindCode.mpr (follows_tryCatch.mpr (follows_bindCode.mpr
      (sessionProgram_placed (fun ended => ?_) _))))
    cases ended with
    | error e => exact trivial
    | ok session => exact trivial

theorem program_placed (task : Task) : Follows placeAllowed placeAfter anyEnd .fresh (task.program p) := by
  cases task with
  | requestDIDChallenge did randomBytes timestamp =>
    refine follows_map.mpr (follows_bindCode.mpr ?_)
    cases made : generateDIDChallenge did randomBytes timestamp with
    | error e => exact trivial
    | ok challenge =>
      exact follows_bindCode.mpr (follows_caught.mpr ⟨⟨timestamp,generated_of_ok made⟩,fun _ => trivial⟩)
  | verifyDIDAuth did challenge signature now familyId jti =>
    rw [verify_program]
    refine ⟨trivial,fun answer => ?_⟩
    beta_reduce
    rcases judge_cases answer.toOption.join with ⟨e,ends⟩ | ⟨stored,deletes⟩ | ⟨stored,_,_,email,signs⟩
    · rw [ends]
      exact trivial
    · rw [deletes,answer_of_stored stored]
      exact ⟨rfl,fun _ => trivial⟩
    · rw [signs,answer_of_stored stored]
      exact ⟨rfl,fun _ => ⟨trivial,welcome_placed did familyId jti⟩⟩

end Places

/-! ### One use of a challenge -/

def asksUser : Program Query Value (Except String Reply) → Bool
  | .call (.redisDel _) next =>
    match next (.ok ()) with
    | .call (.upsertUser _) _ => true
    | _ => false
  | _ => false

section System
variable {p : Platform}

/-- The DID and the challenge with which a call is about to sign in. -/
def inHand (s : System p) (c : Nat) : Option (String × String) :=
  match s.threads c with
  | some t =>
    match t.place placeAfter .fresh with
    | .read did challenge => if asksUser t.rest then some (did,challenge) else none
    | _ => none
  | none => none

abbrev Step (p : Platform) := Transition (System p) (Input Task Outside) (Option (Answered Query Value))

def Issues (did challenge : String) (t : Step p) : Prop :=
  match t.input with
  | .proceed c outcome => t.before.pending c = some (.redisSet did challenge) ∧ outcome.applied = true
  | _ => False

instance (did challenge : String) (t : Step p) : Decidable (Issues did challenge t) :=
  match t with
  | ⟨s,.proceed c outcome,_,_⟩ =>
    inferInstanceAs (Decidable (s.pending c = some (.redisSet did challenge) ∧ outcome.applied = true))
  | ⟨_,.start _ _,_,_⟩ => .isFalse id
  | ⟨_,.exit _,_,_⟩ => .isFalse id
  | ⟨_,.outside _,_,_⟩ => .isFalse id

def Takes (c : Nat) (did challenge : String) (t : Step p) : Prop :=
  (∃ outcome, t.input = .proceed c outcome) ∧ inHand t.before c = some (did,challenge)

/-- A call that signs in deletes the challenge, unless it is gone, and no other has it in hand. -/
def Alone (s : System p) : Input Task Outside → Prop
  | .proceed c outcome => ∀ did challenge, inHand s c = some (did,challenge) →
    (outcome.applied = true ∨ s.world.challenge did ≠ some challenge) ∧
      ∀ d, d ≠ c → inHand s d ≠ some (did,challenge)
  | _ => True

/-- Nobody can sign in with a challenge. -/
def Spent (did challenge : String) (s : System p) : Prop :=
  s.world.challenge did ≠ some challenge ∧ ∀ c, inHand s c ≠ some (did,challenge)

variable {s : System p} {c : Nat} {did challenge : String}

theorem inHand_at (placed : Placed placeAllowed placeAfter anyEnd .fresh s) (held : inHand s c = some (did,challenge)) :
    ∃ made next, s.threads c = some ⟨made,.call (.redisDel did) next⟩ ∧
      (Thread.mk made (.call (.redisDel did) next)).place placeAfter .fresh = .read did challenge := by
  unfold inHand at held
  cases running : s.threads c with
  | none => simp [running] at held
  | some t =>
    have follows := placed c t running
    obtain ⟨made,rest⟩ := t
    cases place : (Thread.mk made rest).place placeAfter .fresh with
    | fresh => simp [running,place] at held
    | done => simp [running,place] at held
    | read d x =>
      simp only [running,place,Option.ite_none_right_eq_some,Option.some.injEq,Prod.mk.injEq] at held
      obtain ⟨signs,rfl,rfl⟩ := held
      rw [place] at follows
      unfold asksUser at signs
      split at signs
      · rename_i other next
        obtain rfl : other = d := follows.1
        exact ⟨made,next,rfl,place⟩
      · cases signs

theorem inHand_put {d : Nat} (other : d ≠ c) (w : World p) (t : Option (Thread Query Value (Except String Reply))) :
    inHand ((s.setWorld w).put c t) d = inHand s d := by
  unfold inHand
  rw [System.put_threads,if_neg other]
  rfl

theorem exec_challenge (w : World p) (q : Query) (other : q ≠ .redisSet did challenge)
    (gone : w.challenge did ≠ some challenge) : (exec w q).2.challenge did ≠ some challenge := by
  cases q with
  | redisGet d => exact gone
  | redisSet d x =>
    by_cases own : did = d
    · subst own
      have differ : x ≠ challenge := fun same => other (by rw [same])
      simpa [exec,World.setChallenge] using differ
    · simpa [exec,World.setChallenge,own] using gone
  | redisDel d =>
    by_cases own : did = d
    · simp [exec,World.setChallenge,own]
    · simpa [exec,World.setChallenge,own] using gone
  | upsertUser email =>
    cases email with
    | none => exact gone
    | some email =>
      simp only [exec,World.upsert]
      cases (w.user.upsert email).1 <;> exact gone
  | session q => exact gone

theorem outside_challenge (o : Outside) (w : World p) (gone : w.challenge did ≠ some challenge) :
    (o.apply w).challenge did ≠ some challenge := by
  cases o with
  | expire d =>
    by_cases own : did = d
    · simp [Outside.apply,World.setChallenge,own]
    · simpa [Outside.apply,World.setChallenge,own] using gone
  | upsertUser _ | deleteUser _ | useSessions _ => exact gone

theorem read_cases {place : Place} {q : Query} {answer : Except String (Value q)} (allowed : placeAllowed place q)
    (reads : placeAfter place q answer = .read did challenge) :
    ∃ same : q = .redisGet did, same ▸ answer = .ok (some challenge) := by
  cases place with
  | fresh =>
    cases q with
    | redisGet d =>
      rcases answer with e | _ | x
      · cases reads
      · cases reads
      · cases reads
        exact ⟨rfl,rfl⟩
    | redisSet _ _ => cases reads
    | redisDel _ | upsertUser _ | session _ => exact allowed.elim
  | read d x =>
    cases q with
    | redisDel _ => cases reads
    | redisGet _ | redisSet _ _ | upsertUser _ | session _ => exact allowed.elim
  | done => cases reads

variable {i : Input Task Outside}

theorem spent_step (placed : Placed placeAllowed placeAfter anyEnd .fresh s) (spent : Spent did challenge s)
    (kept : ¬ Issues did challenge (transition (step p) s i)) : Spent did challenge (step p s i).2 := by
  have placed' : Placed placeAllowed placeAfter anyEnd .fresh (step p s i).2 := placed_step program_placed placed i
  rcases step_cases exec (Task.program p) Outside.apply s i with same | ⟨c,task,_,_,moved⟩ |
    ⟨c,outcome,made,q,next,rfl,standing,moved⟩ | ⟨c,_,moved⟩ | ⟨o,_,moved⟩
  · rw [step,same]
    exact spent
  · rw [step,moved]
    refine ⟨spent.1,fun d held => ?_⟩
    by_cases own : d = c
    · simp [inHand,own,System.put_threads] at held
    · exact spent.2 d ((inHand_put own s.world _).symm.trans held)
  · have other : outcome.applied = true → q ≠ .redisSet did challenge := by
      rintro applied rfl
      exact kept ⟨pending_of_at ⟨made,next,standing⟩,applied⟩
    rw [step,moved] at placed' ⊢
    refine ⟨?_,fun d held => ?_⟩
    · cases outcome with
      | failed message => exact spent.1
      | ok => exact exec_challenge s.world q (other rfl) spent.1
      | lost message => exact exec_challenge s.world q (other rfl) spent.1
    · by_cases own : d = c
      · subst own
        obtain ⟨made',next',running,place⟩ := inHand_at placed' held
        rw [System.put_threads,if_pos rfl] at running
        obtain ⟨madeIs,_⟩ := Thread.mk.inj (Option.some.inj running)
        rw [← madeIs,Thread.place_append placeAfter .fresh made q _ (.call q next)] at place
        obtain ⟨rfl,answered⟩ := read_cases (placed d _ standing).1 place
        cases outcome with
        | failed message => cases answered
        | lost message => cases answered
        | ok => exact spent.1 (Except.ok.inj answered)
      · exact spent.2 d ((inHand_put own _ _).symm.trans held)
  · rw [step,moved]
    refine ⟨spent.1,fun d held => ?_⟩
    by_cases own : d = c
    · simp [inHand,own,System.put_threads] at held
    · exact spent.2 d ((inHand_put own s.world _).symm.trans held)
  · rw [step,moved]
    exact ⟨outside_challenge o s.world spent.1,spent.2⟩

theorem takes_spent (placed : Placed placeAllowed placeAfter anyEnd .fresh s)
    (takes : Takes c did challenge (transition (step p) s i)) (alone : Alone s i) : Spent did challenge (step p s i).2 := by
  obtain ⟨⟨outcome,rfl⟩,held⟩ := takes
  obtain ⟨deleted,others⟩ := alone did challenge held
  obtain ⟨made,next,standing,place⟩ := inHand_at placed held
  have moved : (step p s (.proceed c outcome)).2 = (s.setWorld (respond exec s.world (.redisDel did) outcome).2).put c
      (some ⟨made ++ [⟨.redisDel did,(respond exec s.world (.redisDel did) outcome).1⟩],
        next (respond exec s.world (.redisDel did) outcome).1⟩) := by
    simp [step,Interleaving.step,standing]
  have gone : (exec s.world (.redisDel did)).2.challenge did ≠ some challenge := by simp [exec,World.setChallenge]
  rw [moved]
  refine ⟨?_,fun d held' => ?_⟩
  · cases outcome with
    | ok => exact gone
    | lost message => exact gone
    | failed message =>
      rcases deleted with applied | absent
      · cases applied
      · exact absent
  · by_cases own : d = c
    · have placed' : Placed placeAllowed placeAfter anyEnd .fresh (step p s (.proceed c outcome)).2 :=
        placed_step program_placed placed _
      rw [moved] at placed'
      subst own
      obtain ⟨made',next',running,place'⟩ := inHand_at placed' held'
      rw [System.put_threads,if_pos rfl] at running
      obtain ⟨madeIs,_⟩ := Thread.mk.inj (Option.some.inj running)
      rw [← madeIs,Thread.place_append placeAfter .fresh made _ _ (.call (.redisDel did) next),place] at place'
      cases place'
    · exact others d own ((inHand_put own _ _).symm.trans held')

variable {inputs : List (Input Task Outside)}

theorem run_spent (placed : Placed placeAllowed placeAfter anyEnd .fresh s) (spent : Spent did challenge s)
    (kept : ∀ t ∈ history (step p) s inputs, ¬ Issues did challenge t) : Spent did challenge (run (step p) s inputs) := by
  refine (run_inv_of_meets (I := fun s => Placed placeAllowed placeAfter anyEnd .fresh s ∧ Spent did challenge s)
    (M := fun s i => ¬ Issues did challenge (transition (step p) s i)) ?_ (fun t listed => ?_) ⟨placed,spent⟩).2
  · rintro s i unissued ⟨placed,spent⟩
    exact ⟨placed_step program_placed placed i,spent_step placed spent unissued⟩
  · obtain ⟨_,_,same⟩ := mem_history listed
    rw [same] at listed ⊢
    exact kept _ listed

theorem run_places (w : World p) (inputs : List (Input Task Outside)) :
    Placed placeAllowed placeAfter anyEnd .fresh (run (step p) (System.start w) inputs) := run_placed program_placed w inputs

theorem issued_of_inHand {w : World p} (nothing : ∀ did, w.challenge did = none)
    (held : inHand (run (step p) (System.start w) inputs) c = some (did,challenge)) :
    ∃ t ∈ history (step p) (System.start w) inputs, Issues did challenge t := by
  by_contra unissued
  have start : Spent did challenge (System.start w : System p) := by
    refine ⟨?_,fun d held => ?_⟩
    · simp [System.start,nothing]
    · cases held
  exact (run_spent (placed_start w) start fun t listed issues => unissued ⟨t,listed,issues⟩).2 c held

/-- Of the sign-ins with a challenge every one needs an issue of its own. -/
def UsedOnce (steps : List (Step p)) : Prop :=
  ∀ earlier t between u later c d did challenge, steps = earlier ++ t :: (between ++ u :: later) →
    Takes c did challenge t → Takes d did challenge u → ∃ v ∈ between, Issues did challenge v

theorem used_once (w : World p) (alone : ∀ t ∈ history (step p) (System.start w) inputs, Alone t.before t.input) :
    UsedOnce (history (step p) (System.start w) inputs) := by
  intro earlier t between u later c d did challenge split takes takes'
  have meets : Alone t.before t.input := alone t (by simp [split])
  obtain ⟨before,i,after,rfl,rfl,rfl,rest⟩ := history_split split
  obtain ⟨before',j,after',rfl,rfl,rfl,_⟩ := history_split rest.symm
  by_contra unissued
  have placed := run_places w before
  have spent := takes_spent placed takes meets
  exact (run_spent (placed_step program_placed placed i) spent
    fun v listed issues => unissued ⟨v,listed,issues⟩).2 d takes'.2

end System

section Calls
variable {p : Platform} {did challenge signature : String} {now : Int} {familyId jti : String} {c : Nat}

/-- The challenge is not expired and `verifyDIDSignature` accepts the signature. -/
def Valid (p : Platform) (did challenge signature : String) (now : Int) : Prop :=
  isDIDChallengeExpired p now challenge = false ∧ verifyDIDSignature p did challenge signature = .ok true

/-- How far a call has come: it has just started, it has failed or is about to, it has the challenge in hand, or it has signed in. -/
inductive Underway (p : Platform) (did challenge signature : String) (now : Int) (familyId jti : String) (c : Nat)
    (past : List (Step p)) (t : Thread Query Value (Except String Reply)) : Prop
  | started (is : t = ⟨[],Task.program p (.verifyDIDAuth did challenge signature now familyId jti)⟩)
  | failed (e : String) (ends : t.rest = .returned (.error e))
  | fails (e : String) (deletes : t.rest = .call (.redisDel did) fun _ => .returned (.error e))
  | holds (valid : Valid p did challenge signature now) (place : t.place placeAfter .fresh = .read did challenge)
      (email : Option String)
      (signs : t.rest = .call (.redisDel did) fun _ => .call (.upsertUser email) (welcome did familyId jti))
  | signed (valid : Valid p did challenge signature now) (u : Step p) (listed : u ∈ past) (takes : Takes c did challenge u)

variable {made : List (Answered Query Value)}

theorem underway_moves {past : List (Step p)} {s : System p} {outcome : Outcome} {q : Query}
    {next : Except String (Value q) → Program Query Value (Except String Reply)}
    (running : s.threads c = some ⟨made,.call q next⟩)
    (underway : Underway p did challenge signature now familyId jti c past ⟨made,.call q next⟩) :
    Underway p did challenge signature now familyId jti c (past ++ [transition (step p) s (.proceed c outcome)])
      ⟨made ++ [⟨q,(respond exec s.world q outcome).1⟩],next (respond exec s.world q outcome).1⟩ := by
  cases underway with
  | started is =>
    rw [verify_program] at is
    obtain ⟨rfl,same⟩ := Thread.mk.inj is
    cases same
    rcases judge_cases (respond exec s.world (.redisGet did) outcome).1.toOption.join with ⟨e,ends⟩ | ⟨_,deletes⟩ |
      ⟨stored,fresh,verified,email,signs⟩
    · exact .failed e ends
    · exact .fails CHALLENGE_EXPIRED deletes
    · refine .holds ⟨fresh,verified⟩ ?_ email signs
      rw [answer_of_stored stored]
      rfl
  | failed e ends => cases ends
  | fails e deletes =>
    cases deletes
    exact .failed e rfl
  | holds valid place email signs =>
    cases signs
    refine .signed valid _ (List.mem_append_right _ (List.mem_singleton_self _)) ⟨⟨outcome,rfl⟩,?_⟩
    simp only [inHand,transition,running,place,asksUser,↓reduceIte]
  | signed valid u listed takes => exact .signed valid u (List.mem_append_left _ listed) takes

theorem underway_waits {past : List (Step p)} {u : Step p} {t : Thread Query Value (Except String Reply)}
    (underway : Underway p did challenge signature now familyId jti c past t) :
    Underway p did challenge signature now familyId jti c (past ++ [u]) t := by
  cases underway with
  | started is => exact .started is
  | failed e ends => exact .failed e ends
  | fails e deletes => exact .fails e deletes
  | holds valid place email signs => exact .holds valid place email signs
  | signed valid u listed takes => exact .signed valid u (List.mem_append_left _ listed) takes

theorem session_takes {s : System p} {inputs : List (Input Task Outside)} {response : AuthSessionResponse}
    (call : Completes exec (Task.program p) Outside.apply s c (.verifyDIDAuth did challenge signature now familyId jti)
      inputs made (.ok (.session response))) :
    Valid p did challenge signature now ∧
      ∃ t ∈ history (step p) (step p s (.start c (.verifyDIDAuth did challenge signature now familyId jti))).2 inputs,
        Takes c did challenge t := by
  obtain ⟨t,running,underway⟩ := thread_rec (I := fun _ => True)
    (P := Underway p did challenge signature now familyId jti c) exec (Task.program p) Outside.apply
    (start_threads exec (Task.program p) Outside.apply call.idle _) trivial (fun _ _ _ => trivial) (.started rfl)
    (fun _ _ _ => underway_waits) (fun _ _ _ _ _ _ _ => underway_moves) call.started call.exited
  obtain rfl : t = ⟨made,.returned (.ok (.session response))⟩ := Option.some.inj (running.symm.trans call.returned)
  cases underway with
  | started is =>
    rw [verify_program] at is
    cases is
  | failed e ends => cases ends
  | fails e deletes => cases deletes
  | holds valid place email signs => cases signs
  | signed valid u listed takes => exact ⟨valid,u,listed,takes⟩

/-- A call signs in with a challenge that was issued for its DID and has not run out, and with a signature by the
    key of the DID where it names one. -/
structure Authentic (p : Platform) (w : World p) (sofar : List (Input Task Outside)) (c : Nat)
    (did challenge signature : String) (now : Int) : Prop where
  taken : inHand (run (step p) (System.start w) sofar) c = some (did,challenge)
  issued : ∃ t ∈ history (step p) (System.start w) sofar, Issues did challenge t
  unexpired : ∃ timestamp, Generated did challenge timestamp ∧
    (timestamp ≤ MAX_SAFE_INTEGER → now ≤ timestamp + (DID_CHALLENGE_TTL_MS : Int))
  signed : KeyChecked did → KeySigned p did challenge signature

end Calls

section Runs
variable {p : Platform}

variable {inputs : List (Input Task Outside)}

theorem issues_generated {w : World p} {did challenge : String} {t : Step p}
    (listed : t ∈ history (step p) (System.start w) inputs) (issues : Issues did challenge t) :
    ∃ timestamp, Generated did challenge timestamp := by
  obtain ⟨before,i,rfl⟩ := mem_history listed
  cases i with
  | start _ _ | exit _ | outside _ => exact issues.elim
  | proceed c outcome =>
  obtain ⟨made,next,standing⟩ := at_of_pending issues.1
  have allowed := (run_places w before c _ standing).1
  cases place : (Thread.mk made (.call (.redisSet did challenge) next)).place placeAfter .fresh with
  | fresh =>
    rw [place] at allowed
    exact allowed
  | read _ _ | done =>
    rw [place] at allowed
    exact allowed.elim

/-- In every run a call returns a session only after it has signed in with an issued challenge that has not run
    out, and with a signature by the key of the DID where it names one. In the runs in which no two calls have
    one challenge in hand at a sign-in and every sign-in deletes it, each issue of a challenge leads to one at most. -/
theorem did_logins (p : Platform) (w : World p) (nothing : ∀ did, w.challenge did = none) (inputs : List (Input Task Outside)) :
    (∀ first second c did challenge signature now familyId jti made response,
      inputs = first ++ .start c (.verifyDIDAuth did challenge signature now familyId jti) :: second →
      Completes exec (Task.program p) Outside.apply (run (step p) (System.start w) first) c
        (.verifyDIDAuth did challenge signature now familyId jti) second made (.ok (.session response)) →
      ∃ before outcome after, second = before ++ .proceed c outcome :: after ∧
        Authentic p w (first ++ .start c (.verifyDIDAuth did challenge signature now familyId jti) :: before) c
          did challenge signature now) ∧
    ((∀ t ∈ history (step p) (System.start w) inputs, Alone t.before t.input) →
      UsedOnce (history (step p) (System.start w) inputs)) := by
  refine ⟨?_,used_once w⟩
  rintro first second c did challenge signature now familyId jti made response rfl call
  obtain ⟨⟨unexpired,verified⟩,t,listed,⟨outcome,isProceed⟩,held⟩ := session_takes call
  obtain ⟨earlier,later,split⟩ := List.append_of_mem listed
  obtain ⟨before,i,after,rfl,_,rfl,_⟩ := history_split split
  obtain rfl : i = .proceed c outcome := isProceed
  have taken : inHand (run (step p) (System.start w)
      (first ++ .start c (.verifyDIDAuth did challenge signature now familyId jti) :: before)) c = some (did,challenge) := by
    rw [run_append,run_cons]
    exact held
  obtain ⟨u,earlier,issues⟩ := issued_of_inHand nothing taken
  obtain ⟨timestamp,generated⟩ := issues_generated earlier issues
  refine ⟨before,outcome,after,rfl,taken,⟨u,earlier,issues⟩,⟨timestamp,generated,fun safe => ?_⟩,
    keySigned_of_verified verified⟩
  rw [generated_expired generated safe,decide_eq_false_iff_not] at unexpired
  omega

/-- The condition as a check, over the numbers of the calls. -/
def aloneAmong (numbers : List Nat) (s : System p) : Input Task Outside → Bool
  | .proceed c outcome =>
    match inHand s c with
    | none => true
    | some (did,challenge) => (outcome.applied || s.world.challenge did != some challenge) &&
      numbers.all fun d => d == c || inHand s d != some (did,challenge)
  | _ => true

theorem alone_of_check {w : World p} (numbers : List Nat) (numbered : ∀ i ∈ inputs, ∀ c, i.number = some c → c ∈ numbers)
    (checked : (history (step p) (System.start w) inputs).all (fun t => aloneAmong numbers t.before t.input) = true) :
    ∀ t ∈ history (step p) (System.start w) inputs, Alone t.before t.input := by
  intro t listed
  have check := List.all_eq_true.mp checked t listed
  obtain ⟨earlier,later,split⟩ := List.append_of_mem listed
  obtain ⟨before,i,after,rfl,_,rfl,_⟩ := history_split split
  simp only [transition] at check ⊢
  cases i with
  | start _ _ | exit _ | outside _ => trivial
  | proceed c outcome =>
    intro did challenge held
    simp only [aloneAmong,held,Bool.and_eq_true,Bool.or_eq_true,bne_iff_ne,List.all_eq_true,beq_iff_eq] at check
    refine ⟨check.1,fun d other => ?_⟩
    by_cases numberedThere : d ∈ numbers
    · rcases check.2 d numberedThere with same | apart
      · exact absurd same other
      · exact apart
    · have untouched : (run (step p) (System.start w) before).threads d = none :=
        run_others exec (Task.program p) Outside.apply fun i member numberIs =>
          numberedThere (numbered i (List.mem_append_left _ member) d numberIs)
      simp [inHand,untouched]

end Runs

/-! ### A holder of a key, and others -/

def stellarKey : String := "GCZHMKTZK3GTGROQ6SZLEI24DQ2PQUJU7CXG5U6TEI4ASO5OLHE76PUQ"
def stellarDid : String := "did:pkh:stellar:" ++ stellarKey
def randomText : String := "00ff00ff00ff00ff00ff00ff00ff00ff00ff00ff00ff00ff00ff00ff00ff00ff"
def stellarChallenge : String := "StellarAlerts-Auth-Challenge:" ++ stellarDid ++ ":" ++ randomText ++ ":1700000000000"

/-- The signature of the challenge by the key. -/
def stellarSignature : String :=
  "ab33ffb21ac199a38a205272a5cd4a49244aad287d49cd5c2aca9c2ef41e9b8c" ++
    "0b29387d7751b06d743572c8e8f2cd72d7046ee929ed80ffe30cf24293635306"

def stellarEmail : String := "gczhmktzk3gtgroq6szl@did.stellar-alerts.org"

/-- A verifier that has seen one signature of the key. -/
def holder : Platform :=
  { plain with
    verify := fun address _ _ signature => some (decide (address = stellarKey ∧ signature = stellarSignature)) }

def emptyWorld : World holder := ⟨Registry.empty,fun _ => none,⟨[],[],fun _ => none,fun _ => none,[]⟩⟩
def requested : List (Input Task Outside) :=
  [.start 0 (.requestDIDChallenge stellarDid randomText 1700000000000),.proceed 0 .ok]
def signing (familyId jti : String) : Task :=
  .verifyDIDAuth stellarDid stellarChallenge stellarSignature 1700000060000 familyId jti

/-- The holder's call is answered, and the challenge is presented again. -/
def answeredAgain : List (Input Task Outside) :=
  List.replicate 5 (.proceed 1 .ok) ++ [.start 2 (signing "g" "j"),.proceed 2 .ok]

def presentedAgain : List (Input Task Outside) := requested ++ .start 1 (signing "f" "i") :: answeredAgain

theorem presentedAgain_returned :
    (history (step holder) (System.start emptyWorld) presentedAgain).all
        (fun t => aloneAmong [0,1,2] t.before t.input) = true ∧
      (run (step holder) (System.start emptyWorld) presentedAgain).returned 1 =
        some (.ok (.session (signedResponse "c" stellarEmail stellarDid "f" "i"))) ∧
      (run (step holder) (System.start emptyWorld) presentedAgain).returned 2 = some (.error CHALLENGE_EXPIRED) := by
  decide +kernel

theorem holder_completes : ∃ made, Completes exec (Task.program holder) Outside.apply
    (run (step holder) (System.start emptyWorld) requested) 1 (signing "f" "i") answeredAgain made
    (.ok (.session (signedResponse "c" stellarEmail stellarDid "f" "i"))) := by
  obtain ⟨_,returned,_⟩ := presentedAgain_returned
  rw [presentedAgain,run_append] at returned
  have alike : (run (Interleaving.step exec (Task.program holder) Outside.apply)
      (run (step holder) (System.start emptyWorld) requested) (.start 1 (signing "f" "i") :: answeredAgain)).returned 1 =
        some (.ok (.session (signedResponse "c" stellarEmail stellarDid "f" "i"))) := returned
  obtain ⟨made,ended⟩ := thread_of_returned alike
  refine ⟨made,?_,?_,?_,ended⟩
  · rintro q ⟨made,next,running⟩
    cases running
  · intro task listed
    rcases List.mem_append.mp listed with proceeds | again
    · cases List.eq_of_mem_replicate proceeds
    · rcases List.mem_cons.mp again with same | last
      · exact absurd (Input.start.inj same).1 (by decide)
      · cases List.mem_singleton.mp last
  · intro listed
    rcases List.mem_append.mp listed with proceeds | again
    · cases List.eq_of_mem_replicate proceeds
    · rcases List.mem_cons.mp again with same | last
      · cases same
      · cases List.mem_singleton.mp last

theorem did_logins_holder : UsedOnce (history (step holder) (System.start emptyWorld) presentedAgain) ∧
    ∃ before outcome after, answeredAgain = before ++ .proceed 1 outcome :: after ∧
      Authentic holder emptyWorld (requested ++ .start 1 (signing "f" "i") :: before) 1 stellarDid stellarChallenge
        stellarSignature 1700000060000 := by
  obtain ⟨calls,once⟩ := did_logins holder emptyWorld (fun _ => rfl) presentedAgain
  refine ⟨once ?_,?_⟩
  · refine alone_of_check [0,1,2] ?_ presentedAgain_returned.1
    intro i listed c numberIs
    have small : ∀ i ∈ presentedAgain, ∀ c ∈ i.number, c ∈ [0,1,2] := by decide
    exact small i listed c numberIs
  · obtain ⟨made,call⟩ := holder_completes
    exact calls requested answeredAgain 1 stellarDid stellarChallenge stellarSignature 1700000060000 "f" "i" made _ rfl call

def keyChallenge : String := "StellarAlerts-Auth-Challenge:" ++ keyDid ++ ":00ff:1000"

/-- Two calls read the challenge. -/
def readAtOnce : List (Input Task Outside) :=
  [.start 0 (.requestDIDChallenge keyDid "00ff" 1000),.proceed 0 .ok,
    .start 1 (.verifyDIDAuth keyDid keyChallenge "0123456789a" 2000 "f" "i"),
    .start 2 (.verifyDIDAuth keyDid keyChallenge "0123456789a" 2000 "g" "j"),.proceed 1 .ok,.proceed 2 .ok]

/-- Both of them go on. -/
def presentedAtOnce : List (Input Task Outside) :=
  readAtOnce ++ .proceed 1 .ok :: (List.replicate 3 (.proceed 1 .ok) ++ .proceed 2 .ok :: List.replicate 3 (.proceed 2 .ok))

theorem presentedAtOnce_returned :
    (run (step plain) (System.start nobody) presentedAtOnce).returned 1 =
        some (.ok (.session (signedResponse "c" keyEmail keyDid "f" "i"))) ∧
      (run (step plain) (System.start nobody) presentedAtOnce).returned 2 =
        some (.ok (.session (signedResponse "c" keyEmail keyDid "g" "j"))) := by
  decide +kernel

/-- A DID without a key that is checked signs in with any signature of eleven units, and two calls
    that run at once sign in with one challenge. -/
theorem did_logins_broken :
    (¬ ∀ (p : Platform) (w : World p) (inputs : List (Input Task Outside)) (c : Nat) (did challenge signature : String)
        (now : Int) (familyId jti : String) (response : AuthSessionResponse), (∀ did, w.challenge did = none) →
      .start c (.verifyDIDAuth did challenge signature now familyId jti) ∈ inputs →
      (run (step p) (System.start w) inputs).returned c = some (.ok (.session response)) →
      KeySigned p did challenge signature) ∧
    ¬ ∀ (p : Platform) (w : World p) (inputs : List (Input Task Outside)), (∀ did, w.challenge did = none) →
      UsedOnce (history (step p) (System.start w) inputs) := by
  constructor
  · intro always
    obtain ⟨parsed,_,accepted⟩ := always plain nobody presentedAtOnce 1 keyDid keyChallenge "0123456789a" 2000 "f" "i" _
      (fun _ => rfl) (List.mem_append_left _ (by simp [readAtOnce])) presentedAtOnce_returned.1
    cases accepted
  · intro always
    have once := always plain nobody presentedAtOnce fun _ => rfl
    rw [presentedAtOnce,history_append,history_cons,history_append,history_cons] at once
    have facts : inHand (run (step plain) (System.start nobody) readAtOnce) 1 = some (keyDid,keyChallenge) ∧
        inHand (run (step plain) (step plain (run (step plain) (System.start nobody) readAtOnce) (.proceed 1 .ok)).2
          (List.replicate 3 (.proceed 1 .ok))) 2 = some (keyDid,keyChallenge) ∧
        ∀ v ∈ history (step plain) (step plain (run (step plain) (System.start nobody) readAtOnce) (.proceed 1 .ok)).2
          (List.replicate 3 (.proceed 1 .ok)), ¬ Issues keyDid keyChallenge v := by decide +kernel
    obtain ⟨first,second,unissued⟩ := facts
    obtain ⟨v,listed,issues⟩ := once _ _ _ _ _ 1 2 keyDid keyChallenge rfl ⟨⟨.ok,rfl⟩,first⟩ ⟨⟨.ok,rfl⟩,second⟩
    exact unissued v listed issues

end StellarAlerts.DidAuth
