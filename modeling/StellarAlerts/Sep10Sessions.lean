import StellarAlerts.Sep10

/-!
For whom a session is opened. The wallet of a key is never given to another user, so all
sessions of a key are for the user to whom it was assigned first
(`sessions_of_wallets`); who assigned it need not hold the key, and a challenge opens
sessions until its time is over.
-/
namespace StellarAlerts.Sep10
open Histories
open Interleaving hiding step
open Registries RemoteCalls UniqueTables
open DidAuth (isValidEd25519PublicKey)

section Challenges
variable {p : Platform}

/-- What a transaction has that `verifyChallenge` accepts for a key. -/
structure Accepted (p : Platform) (tx : Transaction) (signatures : List String) (clientPublicKey : String) (dateNow : Nat) :
    Prop where
  operation : ∃ name value rest, tx.operations = .manageData (some clientPublicKey) name value :: rest
  timely : ∃ lower upper, tx.timeBounds = some (lower,upper) ∧ p.toNumber lower ≤ dateNow / 1000 ∧
    dateNow / 1000 ≤ p.toNumber upper
  server : ∃ signature ∈ signatures, p.verify p.serverPublicKey (p.hash tx) signature = true
  client : ∃ signature ∈ signatures, p.verify clientPublicKey (p.hash tx) signature = true

variable {tx : Transaction} {clientPublicKey : String}

theorem checkOperations_ok {signatures : List String} (accepts : checkOperations p tx signatures = .ok clientPublicKey) :
    (∃ name value rest, tx.operations = .manageData (some clientPublicKey) name value :: rest) ∧
      (∃ signature ∈ signatures, p.verify p.serverPublicKey (p.hash tx) signature = true) ∧
      ∃ signature ∈ signatures, p.verify clientPublicKey (p.hash tx) signature = true := by
  unfold checkOperations at accepts
  split at accepts
  · cases accepts
  · cases accepts
  · rename_i source name value rest operations
    by_cases invalid : source.getD "" = "" ∨ ¬ isValidEd25519PublicKey (source.getD "")
    · rw [if_pos invalid] at accepts
      cases accepts
    rw [if_neg invalid] at accepts
    split at accepts
    · cases accepts
    split at accepts
    · cases accepts
    split at accepts
    · cases accepts
    rename_i server client
    obtain rfl := Except.ok.inj accepts
    obtain ⟨key,rfl⟩ : ∃ key, source = some key := by
      cases source with
      | none => exact absurd (.inl rfl) invalid
      | some key => exact ⟨key,rfl⟩
    refine ⟨⟨name,value,rest,operations⟩,?_,?_⟩
    · simpa using server
    · simpa using client

variable {dateNow : Nat}

theorem checkTransaction_ok {signatures : List String}
    (accepts : checkTransaction p tx signatures dateNow = .ok clientPublicKey) :
    Accepted p tx signatures clientPublicKey dateNow := by
  unfold checkTransaction at accepts
  split at accepts
  · cases accepts
  split at accepts
  · cases accepts
  dsimp only at accepts
  split at accepts
  · cases accepts
  · rename_i lower upper bounds
    split at accepts
    · cases accepts
    split at accepts
    · cases accepts
    rename_i active unexpired
    obtain ⟨operation,server,client⟩ := checkOperations_ok accepts
    exact ⟨operation,⟨lower,upper,bounds,by omega,by omega⟩,server,client⟩

theorem verifyChallenge_ok {transactionXdr : String}
    (accepts : verifyChallenge p transactionXdr dateNow = .ok clientPublicKey) :
    ∃ tx signatures, p.fromXDR transactionXdr = .ok (.transaction tx signatures) ∧
      Accepted p tx signatures clientPublicKey dateNow := by
  unfold verifyChallenge at accepts
  split at accepts
  · cases accepts
  split at accepts
  · cases accepts
  · cases accepts
  · rename_i tx signatures parsed
    exact ⟨tx,signatures,parsed,checkTransaction_ok accepts⟩

def Issued (p : Platform) (inputs : List (Input Task (Outside p))) (clientPublicKey : String) (tx : Transaction)
    (timeoutSeconds dateNow : Nat) : Prop :=
  ∃ c nonce result, .start c (.generateChallenge clientPublicKey timeoutSeconds dateNow nonce) ∈ inputs ∧
    generateChallenge p clientPublicKey timeoutSeconds dateNow nonce = .ok result ∧
    challengeTransaction p clientPublicKey timeoutSeconds dateNow nonce = tx

def Signed (p : Platform) (inputs : List (Input Task (Outside p))) (key : String) (hash : p.Hash) : Prop :=
  if key = p.serverPublicKey then
    ∃ clientPublicKey tx timeoutSeconds dateNow, Issued p inputs clientPublicKey tx timeoutSeconds dateNow ∧ p.hash tx = hash
  else .outside (.sign key hash) ∈ inputs

/-- The signatures that are sent in were made before. -/
def Unforged (p : Platform) (inputs : List (Input Task (Outside p))) : Prop :=
  ∀ first c transactionXdr dateNow second tx signatures,
    inputs = first ++ .start c (.verifyAndIssueSession transactionXdr dateNow) :: second →
    p.fromXDR transactionXdr = .ok (.transaction tx signatures) → ∀ key, ∀ signature ∈ signatures,
    p.verify key (p.hash tx) signature = true → Signed p first key (p.hash tx)

/-- The transaction is a challenge that the server has issued for the key and that its holder has signed,
    and its time has not run out. -/
structure Proven (p : Platform) (inputs : List (Input Task (Outside p))) (clientPublicKey : String) (dateNow : Nat)
    (tx : Transaction) : Prop where
  issued : ∃ timeoutSeconds issuedAt, Issued p inputs clientPublicKey tx timeoutSeconds issuedAt ∧
    (issuedAt / 1000 + timeoutSeconds ≤ 2 ^ 53 →
      issuedAt / 1000 - 30 ≤ dateNow / 1000 ∧ dateNow / 1000 ≤ issuedAt / 1000 + timeoutSeconds)
  signed : Signed p inputs clientPublicKey (p.hash tx)

theorem proven_of_accepted {inputs : List (Input Task (Outside p))} {signatures : List String}
    (unforged : ∀ key, ∀ signature ∈ signatures, p.verify key (p.hash tx) signature = true → Signed p inputs key (p.hash tx))
    (accepted : Accepted p tx signatures clientPublicKey dateNow) : Proven p inputs clientPublicKey dateNow tx := by
  obtain ⟨bySignature,serverListed,serverSigned⟩ := accepted.server
  obtain ⟨signature,listed,signed⟩ := accepted.client
  have signedByServer : Signed p inputs p.serverPublicKey (p.hash tx) := unforged _ bySignature serverListed serverSigned
  rw [Signed,if_pos rfl] at signedByServer
  obtain ⟨key,issuedTx,timeoutSeconds,issuedAt,issued,sameHash⟩ := signedByServer
  obtain rfl : issuedTx = tx := p.hash_injective sameHash
  have forKey : key = clientPublicKey := by
    obtain ⟨_,nonce,_,_,_,rfl⟩ := issued
    obtain ⟨name,value,rest,operations⟩ := accepted.operation
    simp only [challengeTransaction,List.cons.injEq,Operation.manageData.injEq,Option.some.injEq] at operations
    exact operations.1.1
  subst forKey
  refine ⟨⟨timeoutSeconds,issuedAt,issued,fun safe => ?_⟩,unforged _ signature listed signed⟩
  obtain ⟨_,nonce,_,_,_,rfl⟩ := issued
  obtain ⟨lower,upper,bounds,active,unexpired⟩ := accepted.timely
  simp only [challengeTransaction,Option.some.injEq,Prod.mk.injEq] at bounds
  obtain ⟨rfl,rfl⟩ := bounds
  rw [p.toNumber_safe _ (by omega)] at active
  rw [p.toNumber_safe _ safe] at unexpired
  exact ⟨active,unexpired⟩

end Challenges

section Wallets
variable {p : Platform}

variable {w : World p}

theorem addUser_some {w' : World p} {email : String} {user : User} (added : w.addUser email = some (user,w')) :
    user = ⟨p.cuid w.user.created,email⟩ ∧ w'.wallet = w.wallet := by
  unfold World.addUser at added
  obtain ⟨users,_,same⟩ := Option.map_eq_some_iff.mp added
  cases same
  exact ⟨rfl,rfl⟩

theorem addWallet_some {w' : World p} {wallet : Wallet} (added : w.addWallet wallet = some w') :
    w'.wallet.rows = w.wallet.rows ++ [wallet] := by
  unfold World.addWallet at added
  obtain ⟨table,inserted,rfl⟩ := Option.map_eq_some_iff.mp added
  exact insert_rows inserted

theorem exec_wallets (w : World p) (q : Query) :
    (exec w q).2.wallet.rows = w.wallet.rows ∨
    (∃ email publicKey, q = .createOwner email publicKey ∧
      (exec w q).2.wallet.rows = w.wallet.rows ++ [⟨p.cuid w.user.created,publicKey,none,[]⟩]) ∨
    ∃ wallet, q = .createWallet wallet ∧ (exec w q).2.wallet.rows = w.wallet.rows ++ [wallet] := by
  cases q with
  | findWallet _ | findUser _ => exact .inl rfl
  | createUser email =>
    cases added : w.addUser email with
    | none => simp [exec,added]
    | some found =>
      obtain ⟨user,w'⟩ := found
      left
      simp [exec,added,(addUser_some added).2]
  | createOwner email publicKey =>
    cases added : w.addUser email with
    | none => simp [exec,added]
    | some found =>
      obtain ⟨user,w'⟩ := found
      obtain ⟨rfl,same⟩ := addUser_some added
      cases inserted : w'.addWallet ⟨p.cuid w.user.created,publicKey,none,[]⟩ with
      | none => simp [exec,added,inserted]
      | some w'' =>
        refine .inr (.inl ⟨email,publicKey,rfl,?_⟩)
        simp only [exec,added,inserted]
        rw [addWallet_some inserted,same]
  | createWallet wallet =>
    cases inserted : w.addWallet wallet with
    | none => simp [exec,inserted]
    | some w' =>
      by_cases known : (w.user.table.rows.any fun user => user.id == wallet.userId) = true
      · refine .inr (.inr ⟨wallet,rfl,?_⟩)
        simp only [exec,inserted,known,↓reduceIte]
        exact addWallet_some inserted
      · left
        simp [exec,inserted,known]

theorem exec_keeps {row : Wallet} (listed : row ∈ w.wallet.rows) (q : Query) : row ∈ (exec w q).2.wallet.rows := by
  rcases exec_wallets w q with same | ⟨_,_,_,grows⟩ | ⟨_,_,grows⟩
  · rw [same]
    exact listed
  · rw [grows]
    exact List.mem_append_left _ listed
  · rw [grows]
    exact List.mem_append_left _ listed

theorem step_keeps {s : System p} {row : Wallet} (listed : row ∈ s.world.wallet.rows) (i : Input Task (Outside p)) :
    row ∈ (step p s i).2.world.wallet.rows := by
  refine step_world (I := fun w => row ∈ w.wallet.rows) exec (Task.program p) Outside.apply
    (fun _ q listed => exec_keeps listed q) (fun o w listed => ?_) listed i
  cases o with
  | sign _ _ => exact listed
  | createUser email => exact exec_keeps listed (.createUser email)

theorem run_keeps {s : System p} {row : Wallet} (listed : row ∈ s.world.wallet.rows) (inputs : List (Input Task (Outside p))) :
    row ∈ (run (step p) s inputs).world.wallet.rows :=
  run_inv (I := fun s : System p => row ∈ s.world.wallet.rows) (fun _ i listed => step_keeps listed i) listed inputs

theorem eq_of_publicKey {row other : Wallet} (inA : row ∈ w.wallet.rows) (inB : other ∈ w.wallet.rows)
    (same : row.publicKey = other.publicKey) : row = other := by
  refine eq_of_clash w.wallet (fun a b => ?_) inA inB (by simp [Wallet.clash,same])
  rw [Wallet.clash,Wallet.clash,BEq.comm]

/-- The user and the key that an answer tells of. -/
def ownerOf : Answered Query Value → Option (String × String)
  | ⟨.findWallet publicKey,.ok (some (_,some user))⟩ => some (user.id,publicKey)
  | ⟨.createOwner _ publicKey,.ok user⟩ => some (user.id,publicKey)
  | _ => none

theorem ownerOf_error (q : Query) (message : String) : ownerOf ⟨q,.error message⟩ = none := by
  cases q <;> rfl
def Owns (w : World p) (userId publicKey : String) : Prop :=
  ∃ row ∈ w.wallet.rows, row.publicKey = publicKey ∧ row.userId = userId

theorem owns_of_answer {q : Query} {userId publicKey : String} (tells : ownerOf ⟨q,(exec w q).1⟩ = some (userId,publicKey)) :
    Owns (exec w q).2 userId publicKey := by
  cases q with
  | findUser _ | createUser _ | createWallet _ => cases tells
  | findWallet key =>
    cases found : w.wallet.rows.find? fun row => row.publicKey == key with
    | none => simp [exec,found,ownerOf] at tells
    | some row =>
      cases user : w.user.table.rows.find? fun user => user.id == row.userId with
      | none => simp [exec,found,user,ownerOf] at tells
      | some owner =>
        simp only [exec,found,user,ownerOf,Option.map_some,Option.some.injEq,Prod.mk.injEq] at tells
        obtain ⟨rfl,rfl⟩ := tells
        have sameUser := List.find?_some user
        have sameKey := List.find?_some found
        exact ⟨row,List.mem_of_find?_eq_some found,beq_iff_eq.mp sameKey,(beq_iff_eq.mp sameUser).symm⟩
  | createOwner email key =>
    cases added : w.addUser email with
    | none => simp [exec,added,ownerOf] at tells
    | some created =>
      obtain ⟨user,w'⟩ := created
      cases inserted : w'.addWallet ⟨user.id,key,none,[]⟩ with
      | none => simp [exec,added,inserted,ownerOf] at tells
      | some w'' =>
        simp only [exec,added,inserted,ownerOf,Option.some.injEq,Prod.mk.injEq] at tells ⊢
        obtain ⟨rfl,rfl⟩ := tells
        refine ⟨⟨user.id,key,none,[]⟩,?_,rfl,rfl⟩
        rw [addWallet_some inserted]
        simp

end Wallets

section Calls
variable (p : Platform)

def ownerAfter (place : Option (String × String)) (q : Query) (answer : Except String (Value q)) : Option (String × String) :=
  (ownerOf ⟨q,answer⟩).or place
def For (userId : String) (zkProof : Option String) (publicSignals : Option (List String)) (targetUserId : String) : Prop :=
  targetUserId = userId ∨ ∃ proof signals, zkProof = some proof ∧ publicSignals = some signals ∧ verifyZkProof p proof signals = true

/-- A user is created for a key of which a challenge is accepted, and a wallet is added as its call says. -/
def asks : Task → Option (String × String) → Query → Prop
  | .verifyAndIssueSession transactionXdr dateNow, _, .createOwner _ publicKey =>
    verifyChallenge p transactionXdr dateNow = .ok publicKey
  | .addWallet userId publicKey _ _ zkProof publicSignals, _, .createWallet wallet =>
    wallet.publicKey = publicKey ∧ For p userId zkProof publicSignals wallet.userId
  | _, _, .createOwner _ _ => False
  | _, _, .createWallet _ => False
  | _, _, _ => True

/-- A session is for the user and the key that the call was told of, and its challenge is accepted for the key. -/
def ends : Task → Except String Reply → Option (String × String) → Prop
  | .verifyAndIssueSession transactionXdr dateNow, .ok (.session session), place =>
    place = some (session.id,session.publicKey) ∧ verifyChallenge p transactionXdr dateNow = .ok session.publicKey
  | _, .ok (.session _), _ => False
  | _, _, _ => True

variable {p}

theorem given_follows {α β : Type} {allowed : Option (String × String) → Query → Prop} {post : Except String β → Option (String × String) → Prop}
    {place : Option (String × String)} {computed : Except String α} {f : α → Code β}
    (fails : ∀ e, computed = .error e → post (.error e) place)
    (goes : ∀ a, computed = .ok a → Follows allowed ownerAfter post place (f a).run) :
    Follows allowed ownerAfter post place (given computed >>= f).run := by
  refine follows_bindCode.mpr ?_
  cases computed with
  | error e => exact fails e rfl
  | ok a => exact goes a rfl

theorem openSession_follows {transactionXdr publicKey : String} {dateNow : Nat}
    (accepts : verifyChallenge p transactionXdr dateNow = .ok publicKey) (answer : Except String (Option (Wallet × Option User))) :
    Follows (asks p (.verifyAndIssueSession transactionXdr dateNow)) ownerAfter
      (fun ended place => ends p (.verifyAndIssueSession transactionXdr dateNow) (ended.map .session) place)
      (ownerAfter none (.findWallet publicKey) answer)
      (ExceptT.mk (.returned answer) >>= openSession p publicKey : Code SEP10AuthSessionResponse).run := by
  have creates : Follows (asks p (.verifyAndIssueSession transactionXdr dateNow)) ownerAfter
      (fun ended place => ends p (.verifyAndIssueSession transactionXdr dateNow) (ended.map .session) place) none
      (openSession p publicKey none).run := by
    refine given_follows (fun e _ => trivial) fun email _ => follows_bindCode.mpr ⟨accepts,fun created => ?_⟩
    cases created with
    | error e => exact trivial
    | ok user => exact ⟨rfl,accepts⟩
  cases answer with
  | error e => exact trivial
  | ok found =>
    cases found with
    | none => exact creates
    | some pair =>
      obtain ⟨wallet,user⟩ := pair
      cases user with
      | none => exact creates
      | some user => exact ⟨rfl,accepts⟩

theorem targetUser_follows {task : Task} {place : Option (String × String)} (userId : String) (zkProof : Option String)
    (publicSignals : Option (List String)) (reads : ∀ email, asks p task place (.findUser email))
    (creates : ∀ email, asks p task place (.createUser email)) :
    Follows (asks p task) ownerAfter (fun ended there => there = place ∧ ∀ id, ended = .ok id → For p userId zkProof publicSignals id)
      place (targetUser p userId zkProof publicSignals).run := by
  have own : For p userId zkProof publicSignals userId := .inl rfl
  have stays : ∀ id, Except.ok (ε := String) userId = .ok id → For p userId zkProof publicSignals id := by
    rintro id ⟨⟩
    exact own
  cases zkProof with
  | none => exact ⟨rfl,stays⟩
  | some proof =>
    cases publicSignals with
    | none => exact ⟨rfl,stays⟩
    | some signals =>
      unfold targetUser
      dsimp only
      split
      · exact ⟨rfl,stays⟩
      · unfold anonymousUser
        cases valid : verifyZkProof p proof signals with
        | false => exact ⟨rfl,fun _ impossible => by cases impossible⟩
        | true =>
          have anyone : ∀ id, For p userId (some proof) (some signals) id := fun id => .inr ⟨proof,signals,rfl,rfl,valid⟩
          refine follows_asked (reads _) (fun _ => ⟨rfl,fun _ impossible => by cases impossible⟩) fun user => ?_
          cases user with
          | some user => exact ⟨rfl,fun id _ => anyone id⟩
          | none =>
            exact follows_asked (creates _) (fun _ => ⟨rfl,fun _ impossible => by cases impossible⟩) fun user => ⟨rfl,fun id _ => anyone id⟩

theorem program_follows (task : Task) : Follows (asks p task) ownerAfter (ends p task) none (task.program p) := by
  cases task with
  | generateChallenge clientPublicKey timeoutSeconds dateNow nonce =>
    refine follows_map.mpr ?_
    cases generateChallenge p clientPublicKey timeoutSeconds dateNow nonce with
    | error e => exact trivial
    | ok result => exact trivial
  | verifyAndIssueSession transactionXdr dateNow =>
    refine follows_map.mpr (given_follows (fun e _ => trivial) fun publicKey accepts => ⟨trivial,fun answer => ?_⟩)
    exact openSession_follows accepts answer
  | addWallet userId publicKey label tags zkProof publicSignals =>
    refine follows_map.mpr (follows_bindCode.mpr ?_)
    refine follows_mono ?_ (targetUser_follows userId zkProof publicSignals (fun _ => trivial) fun _ => trivial)
    rintro (e | targetUserId) place ⟨rfl,isFor⟩
    · exact trivial
    · refine follows_tryCatch.mpr ⟨⟨rfl,isFor targetUserId rfl⟩,fun answer => ?_⟩
      cases answer with
      | ok wallet => exact trivial
      | error e =>
        show Follows _ _ _ _ (if e = P2002 then throw "Wallet already exists" else throw e : Code Wallet).run
        split <;> exact trivial

end Calls

section Sessions
variable {p : Platform}

abbrev Step (p : Platform) := Transition (System p) (Input Task (Outside p)) (Option (Answered Query Value))

def asksOwner (t : Step p) : Bool :=
  match t.input with
  | .proceed c _ =>
    match t.before.pending c with
    | some (.createOwner _ _) => true
    | _ => false
  | _ => false

structure CreatesOwner (c : Nat) (row : Wallet) (t : Step p) : Prop where
  proceeds : ∃ outcome, t.input = .proceed c outcome
  asks : ∃ email, t.before.pending c = some (.createOwner email row.publicKey)
  isNew : row.userId = p.cuid t.before.world.user.created
  adds : row ∉ t.before.world.wallet.rows ∧ row ∈ t.after.world.wallet.rows

/-- How a user has come by the wallet of a key: it was there, a sign-in with the key has created the user,
    or a call has added it, which nobody has asked to prove the key. -/
inductive Assigned (p : Platform) (w : World p) (inputs : List (Input Task (Outside p))) (row : Wallet) : Prop
  | there (listed : row ∈ w.wallet.rows)
  | signedIn (first : List (Input Task (Outside p))) (c : Nat) (transactionXdr : String) (dateNow : Nat)
      (later : List (Input Task (Outside p))) (split : inputs = first ++ .start c (.verifyAndIssueSession transactionXdr dateNow) :: later)
      (tx : Transaction) (proven : Proven p first row.publicKey dateNow tx)
      (creates : ∃ t ∈ history (step p) (System.start w) inputs, CreatesOwner c row t)
  | added (c : Nat) (userId : String) (label : Option String) (tags : Option (List String)) (zkProof : Option String)
      (publicSignals : Option (List String))
      (listed : .start c (.addWallet userId row.publicKey label tags zkProof publicSignals) ∈ inputs)
      (isFor : For p userId zkProof publicSignals row.userId)

theorem unforged_part {first second : List (Input Task (Outside p))} (unforged : Unforged p (first ++ second)) :
    Unforged p first := by
  intro earlier c transactionXdr dateNow later tx signatures split
  exact unforged earlier c transactionXdr dateNow (later ++ second) tx signatures (by simp [split])

variable {inputs : List (Input Task (Outside p))} {c : Nat}

theorem proven_of_call {first later : List (Input Task (Outside p))} {transactionXdr publicKey : String} {dateNow : Nat}
    (unforged : Unforged p inputs)
    (split : inputs = first ++ .start c (.verifyAndIssueSession transactionXdr dateNow) :: later)
    (accepts : verifyChallenge p transactionXdr dateNow = .ok publicKey) :
    ∃ tx signatures, p.fromXDR transactionXdr = .ok (.transaction tx signatures) ∧ Proven p first publicKey dateNow tx := by
  obtain ⟨tx,signatures,parsed,accepted⟩ := verifyChallenge_ok accepts
  exact ⟨tx,signatures,parsed,
    proven_of_accepted (unforged first c transactionXdr dateNow later tx signatures split parsed) accepted⟩

variable {w : World p}

theorem assigned_later {row : Wallet} (assigned : Assigned p w inputs row) (i : Input Task (Outside p)) :
    Assigned p w (inputs ++ [i]) row := by
  cases assigned with
  | there listed => exact .there listed
  | signedIn first c transactionXdr dateNow later split tx proven creates =>
    obtain ⟨t,listed,is⟩ := creates
    refine .signedIn first c transactionXdr dateNow (later ++ [i]) (by simp [split]) tx proven ⟨t,?_,is⟩
    rw [history_append]
    exact List.mem_append_left _ listed
  | added c userId label tags zkProof publicSignals listed isFor =>
    exact .added c userId label tags zkProof publicSignals (List.mem_append_left _ listed) isFor

variable {i : Input Task (Outside p)}

theorem step_adds {s : System p} {row : Wallet} (old : row ∉ s.world.wallet.rows)
    (listed : row ∈ (step p s i).2.world.wallet.rows) :
    ∃ c outcome made q next, i = .proceed c outcome ∧ s.threads c = some ⟨made,.call q next⟩ ∧
      ((∃ email, q = .createOwner email row.publicKey ∧ row.userId = p.cuid s.world.user.created) ∨ q = .createWallet row) := by
  rcases world_cases exec (Task.program p) Outside.apply s i with same | ⟨c,outcome,q,isProceed,_,⟨made,next,standing⟩,world⟩ |
    ⟨o,_,world⟩
  · rw [step,same] at listed
    exact absurd listed old
  · refine ⟨c,outcome,made,q,next,isProceed,standing,?_⟩
    rw [step,world] at listed
    rcases exec_wallets s.world q with same | ⟨email,publicKey,isCreate,grows⟩ | ⟨wallet,isCreate,grows⟩
    · rw [same] at listed
      exact absurd listed old
    · rw [grows,List.mem_append,List.mem_singleton] at listed
      obtain rfl := listed.resolve_left old
      exact .inl ⟨email,isCreate,rfl⟩
    · rw [grows,List.mem_append,List.mem_singleton] at listed
      obtain rfl := listed.resolve_left old
      exact .inr isCreate
  · rw [step,world] at listed
    cases o with
    | sign _ _ => exact absurd listed old
    | createUser email =>
      rcases exec_wallets s.world (.createUser email) with same | ⟨_,_,other,_⟩ | ⟨_,other,_⟩
      · rw [Outside.apply,same] at listed
        exact absurd listed old
      · cases other
      · cases other

theorem assigned_new {row : Wallet} (unforged : Unforged p (inputs ++ [i]))
    (old : row ∉ (run (step p) (System.start w) inputs).world.wallet.rows)
    (listed : row ∈ (step p (run (step p) (System.start w) inputs) i).2.world.wallet.rows) :
    Assigned p w (inputs ++ [i]) row := by
  obtain ⟨c,outcome,made,q,next,rfl,standing,adds⟩ := step_adds old listed
  obtain ⟨first,task,later,split,follows⟩ := run_started program_follows w inputs c _ standing
  have here : transition (step p) (run (step p) (System.start w) inputs) (.proceed c outcome) ∈
      history (step p) (System.start w) (inputs ++ [.proceed c outcome]) := by
    rw [history_append]
    exact List.mem_append_right _ (List.mem_singleton_self _)
  rcases adds with ⟨email,rfl,isNew⟩ | rfl
  · cases task with
    | generateChallenge _ _ _ _ => exact follows.1.elim
    | addWallet _ _ _ _ _ _ => exact follows.1.elim
    | verifyAndIssueSession transactionXdr dateNow =>
      obtain ⟨tx,signatures,_,proven⟩ := proven_of_call (unforged_part unforged) split follows.1
      exact .signedIn first c transactionXdr dateNow (later ++ [.proceed c outcome]) (by simp [split]) tx proven
        ⟨_,here,⟨outcome,rfl⟩,⟨email,pending_of_at ⟨made,next,standing⟩⟩,isNew,old,listed⟩
  · cases task with
    | generateChallenge _ _ _ _ => exact follows.1.elim
    | verifyAndIssueSession _ _ => exact follows.1.elim
    | addWallet userId publicKey label tags zkProof publicSignals =>
      obtain ⟨rfl,isFor⟩ := follows.1
      exact .added c userId label tags zkProof publicSignals (by simp [split]) isFor

theorem run_assigned (unforged : Unforged p inputs) {row : Wallet}
    (listed : row ∈ (run (step p) (System.start w) inputs).world.wallet.rows) : Assigned p w inputs row := by
  induction inputs using List.reverseRecOn with
  | nil => exact .there listed
  | append_singleton inputs i ih =>
    by_cases old : row ∈ (run (step p) (System.start w) inputs).world.wallet.rows
    · exact assigned_later (ih (unforged_part unforged) old) i
    · rw [run_append] at listed
      exact assigned_new unforged old listed

variable {t : Thread Query Value (Except String Reply)}

theorem owner_of_place {owner : String × String} (placed : t.place ownerAfter none = some owner) :
    ∃ answered ∈ t.made, ownerOf answered = some owner := by
  obtain ⟨made,rest⟩ := t
  induction made using List.reverseRecOn with
  | nil => cases placed
  | append_singleton made answered ih =>
    rw [Thread.place_append ownerAfter none made answered.1 answered.2 rest,ownerAfter,Option.or_eq_some_iff] at placed
    rcases placed with now | ⟨_,earlier⟩
    · exact ⟨answered,List.mem_append_right _ (List.mem_singleton_self _),now⟩
    · obtain ⟨other,listed,tells⟩ := ih earlier
      exact ⟨other,List.mem_append_left _ listed,tells⟩

theorem owns_of_place (running : (run (step p) (System.start w) inputs).threads c = some t) {userId publicKey : String}
    (placed : t.place ownerAfter none = some (userId,publicKey)) :
    Owns (run (step p) (System.start w) inputs).world userId publicKey := by
  obtain ⟨⟨q,answer⟩,listed,tells⟩ := owner_of_place placed
  obtain ⟨u,member,⟨outcome,proceeds⟩,answered⟩ := made_history exec (Task.program p) Outside.apply
    (s := System.start w) (fun _ impossible => by cases impossible) inputs t running _ listed
  obtain ⟨earlier,later,split⟩ := List.append_of_mem member
  obtain ⟨before,i,after,rfl,_,rfl,_⟩ := history_split split
  obtain rfl : i = .proceed c outcome := proceeds
  rw [run_append,run_cons]
  obtain ⟨row,held,isKey,isUser⟩ : Owns (step p (run (step p) (System.start w) before) (.proceed c outcome)).2.world
      userId publicKey := by
    obtain ⟨_,reached,_,_,rfl,world⟩ := answer_cases exec (Task.program p) Outside.apply answered
    rw [step,world]
    cases reached with
    | ok => exact owns_of_answer tells
    | failed message | lost message =>
      rw [respond,ownerOf_error] at tells
      cases tells
  exact ⟨row,run_keeps held after,isKey,isUser⟩

theorem session_call {session : SEP10AuthSessionResponse}
    (returned : (run (step p) (System.start w) inputs).returned c = some (.ok (.session session))) :
    ∃ first transactionXdr dateNow later,
      inputs = first ++ .start c (.verifyAndIssueSession transactionXdr dateNow) :: later ∧
      verifyChallenge p transactionXdr dateNow = .ok session.publicKey ∧
      Owns (run (step p) (System.start w) inputs).world session.id session.publicKey := by
  obtain ⟨made,running⟩ := thread_of_returned returned
  obtain ⟨first,task,later,split,ended⟩ := run_started program_follows w inputs c _ running
  cases task with
  | generateChallenge _ _ _ _ => exact ended.elim
  | addWallet _ _ _ _ _ _ => exact ended.elim
  | verifyAndIssueSession transactionXdr dateNow =>
    exact ⟨first,transactionXdr,dateNow,later,split,ended.2,owns_of_place running ended.1⟩

end Sessions

/-- In a run without forged signatures a call returns a session only for a key of which it has brought a challenge that was issued for
    the key and signed by its holder, and for the user to whom the wallets assign the key; all sessions of a key are for one user. -/
theorem sessions_of_wallets (p : Platform) (w : World p) (inputs : List (Input Task (Outside p))) (unforged : Unforged p inputs) :
    (∀ c session, (run (step p) (System.start w) inputs).returned c = some (.ok (.session session)) →
      (∃ first transactionXdr dateNow later tx signatures,
        inputs = first ++ .start c (.verifyAndIssueSession transactionXdr dateNow) :: later ∧
        p.fromXDR transactionXdr = .ok (.transaction tx signatures) ∧ Proven p first session.publicKey dateNow tx) ∧
      ∃ row ∈ (run (step p) (System.start w) inputs).world.wallet.rows,
        row.publicKey = session.publicKey ∧ row.userId = session.id ∧ Assigned p w inputs row) ∧
    ∀ first second c d session other, inputs = first ++ second →
      (run (step p) (System.start w) first).returned c = some (.ok (.session session)) →
      (run (step p) (System.start w) inputs).returned d = some (.ok (.session other)) →
      session.publicKey = other.publicKey → session.id = other.id := by
  constructor
  · intro c session returned
    obtain ⟨first,transactionXdr,dateNow,later,split,accepts,row,listed,isKey,isUser⟩ := session_call returned
    obtain ⟨tx,signatures,parsed,proven⟩ := proven_of_call unforged split accepts
    exact ⟨⟨first,transactionXdr,dateNow,later,tx,signatures,split,parsed,proven⟩,
      row,listed,isKey,isUser,run_assigned unforged listed⟩
  · rintro first second c d session other rfl returned later sameKey
    obtain ⟨_,_,_,_,_,_,row,listed,isKey,isUser⟩ := session_call returned
    obtain ⟨_,_,_,_,_,_,last,held,lastKey,lastUser⟩ := session_call later
    have kept : row ∈ (run (step p) (System.start w) (first ++ second)).world.wallet.rows := by
      rw [run_append]
      exact run_keeps listed second
    obtain rfl : row = last := eq_of_publicKey kept held (isKey.trans (sameKey.trans lastKey.symm))
    exact isUser.symm.trans lastUser

def holderKey : String := "GCZHMKTZK3GTGROQ6SZLEI24DQ2PQUJU7CXG5U6TEI4ASO5OLHE76PUQ"
def serverKey : String := "GAHIH5ERKOQVVSOLOSL7P4NZLUWDPRK5NZPSRNDMGNHBALPREMSPJFCB"

/-- The challenge that the server issues for the holder's key. -/
def holderTx : Transaction where
  source := serverKey
  sequence := "0"
  fee := "100"
  timeBounds := some (1699999970,1700000300)
  memo := []
  operations := [.manageData (some holderKey) "stellar-alerts.org auth" (List.replicate 64 65)]

def serverSignature : String :=
  "0a5ba2a6d62e74762da9f520a3033d5b8f473f558de45c8219e3d3f9a0da4a3b" ++
    "677f93a8e24cd62d90afebf23c96b43c3c93839c808a7b177b0b4500ed2d9403"

def holderSignature : String :=
  "46cc62c3641d0d75d259942f26047711464375c701bb49ceb335738ca22f806a" ++
    "96d198a31ce83516e27d22a66600b3e752667f74ac82d79b7751e3c537825009"

def unsignedXdr : String :=
  "AAAAAgAAAAAOg/SRU6Fayct0l/fxuV0sN8Vdbl8otGwzThAt8SMk9AAAAGQAAAAAAAAAAAAAAAEAAAAAZVPw4gAAAABlU/Is" ++
  "AAAAAAAAAAEAAAABAAAAALJ2KnlWzTNF0PSysiNcHDT4UTT4rm7T0yI4CTuuWcn/AAAACgAAABdzdGVsbGFyLWFsZXJ0cy5v" ++
  "cmcgYXV0aAAAAAABAAAAQEFBQUFBQUFBQUFBQUFBQUFBQUFBQUFBQUFBQUFBQUFBQUFBQUFBQUFBQUFBQUFBQUFBQUFBQUFB" ++
  "QUFBQUFBQUEAAAAAAAAAA"

def issuedXdr : String :=
  unsignedXdr ++ "fEjJPQAAABACluiptYudHYtqfUgowM9W49HP1WN5FyCGePT+aDaSjtnf5Oo4kzWLZCv6/I8lrQ8PJODnICKexd7C0UA7S2UA" ++
  "w=="

def signedXdr : String :=
  unsignedXdr ++ "vEjJPQAAABACluiptYudHYtqfUgowM9W49HP1WN5FyCGePT+aDaSjtnf5Oo4kzWLZCv6/I8lrQ8PJODnICKexd7C0UA7S2UA" ++
  "65Zyf8AAABARsxiw2QdDXXSWZQvJgR3EUZDdccBu0nOszVzjKIvgGqW0ZijHOg1FuJ9IqZmALPnUmZ/dKyC15t3UePFN4JQC" ++
  "Q=="

def oneChallenge : Platform where
  serverPublicKey := serverKey
  homeDomain := "stellar-alerts.org"
  networkPassphrase := "Test SDF Network ; September 2015"
  fromXDR _ := .ok (.transaction holderTx [serverSignature,holderSignature])
  toXDR _ _ := issuedXdr
  Hash := Transaction
  hash := id
  hash_injective := Function.injective_id
  serverSign _ := serverSignature
  verify key tx signature := decide (tx = holderTx ∧
    (key = serverKey ∧ signature = serverSignature ∨ key = holderKey ∧ signature = holderSignature))
  toNumber := id
  toNumber_safe _ _ := rfl
  groth16Verify _ _ := false
  otherLowerCase := id
  cuid n := String.ofList (List.replicate (n + 1) 'c')
  cuid_injective := DidAuth.repeated_injective

def emptyWorld : World oneChallenge := ⟨Registry.empty,Table.empty⟩

/-- A user adds the key to watch it, then its holder asks for a challenge and signs it. -/
def watched : List (Input Task (Outside oneChallenge)) :=
  [.outside (.createUser "eve@x.org"),.start 0 (.addWallet "c" holderKey none none none none),.proceed 0 .ok,
    .start 1 (.generateChallenge holderKey 300 1700000000000 (List.replicate 64 65)),.outside (.sign holderKey holderTx)]

def holderSigns : Task := .verifyAndIssueSession signedXdr 1700000060000
def signsTwice : List (Input Task (Outside oneChallenge)) :=
  watched ++ [.start 2 holderSigns,.proceed 2 .ok,.start 3 holderSigns,.proceed 3 .ok]
def eveSession : SEP10AuthSessionResponse := ⟨"c","eve@x.org",holderKey⟩

theorem signsTwice_returned :
    (run (step oneChallenge) (System.start emptyWorld) signsTwice).returned 2 = some (.ok (.session eveSession)) ∧
      (run (step oneChallenge) (System.start emptyWorld) signsTwice).returned 3 = some (.ok (.session eveSession)) := by
  decide +kernel

theorem holder_challenged :
    generateChallenge oneChallenge holderKey 300 1700000000000 (List.replicate 64 65) =
        .ok ⟨issuedXdr,"Test SDF Network ; September 2015"⟩ ∧
      challengeTransaction oneChallenge holderKey 300 1700000000000 (List.replicate 64 65) = holderTx := by
  constructor
  · have valid : ¬ (holderKey = "" ∨ ¬ isValidEd25519PublicKey holderKey = true) := by decide +kernel
    rw [generateChallenge,if_neg valid]
    rfl
  · decide +kernel

theorem watched_before {first second : List (Input Task (Outside oneChallenge))} {c : Nat} {transactionXdr : String} {dateNow : Nat}
    (split : signsTwice = first ++ .start c (.verifyAndIssueSession transactionXdr dateNow) :: second) :
    ∀ i ∈ watched, i ∈ first := by
  intro i listed
  have none : .start c (.verifyAndIssueSession transactionXdr dateNow) ∉ watched := by simp [watched]
  rcases List.append_eq_append_iff.mp split with ⟨more,firstIs,_⟩ | ⟨more,watchedIs,restIs⟩
  · rw [firstIs]
    exact List.mem_append_left _ listed
  · cases more with
    | nil =>
      rw [watchedIs,List.append_nil] at listed
      exact listed
    | cons j more =>
      obtain ⟨rfl,_⟩ := List.cons.inj restIs
      exact absurd (by simp [watchedIs]) none

theorem signsTwice_unforged : Unforged oneChallenge signsTwice := by
  intro first c transactionXdr dateNow second tx signatures split parsed key signature _ verified
  obtain ⟨rfl,_⟩ := Envelope.transaction.inj (Except.ok.inj parsed)
  have early := watched_before split
  unfold Signed
  split
  · exact ⟨holderKey,holderTx,300,1700000000000,
      ⟨1,List.replicate 64 65,_,early _ (by simp [watched]),holder_challenged.1,holder_challenged.2⟩,rfl⟩
  · rename_i other
    obtain ⟨_,⟨isServer,_⟩ | ⟨rfl,_⟩⟩ : holderTx = holderTx ∧ (key = serverKey ∧ signature = serverSignature ∨
        key = holderKey ∧ signature = holderSignature) := of_decide_eq_true verified
    · exact absurd isServer other
    · exact early (.outside (.sign holderKey (oneChallenge.hash holderTx))) (List.mem_of_getElem? (i := 4) rfl)

theorem sessions_of_wallets_watched :
    (∃ first dateNow tx, Proven oneChallenge first holderKey dateNow tx) ∧
      ∃ row ∈ (run (step oneChallenge) (System.start emptyWorld) signsTwice).world.wallet.rows,
        row.publicKey = holderKey ∧ row.userId = "c" ∧ Assigned oneChallenge emptyWorld signsTwice row := by
  obtain ⟨⟨first,_,dateNow,_,tx,_,_,_,proven⟩,wallet⟩ :=
    (sessions_of_wallets oneChallenge emptyWorld signsTwice signsTwice_unforged).1 2 eveSession signsTwice_returned.1
  exact ⟨⟨first,dateNow,tx,proven⟩,wallet⟩

/-- A user of the run was created for the key by a sign-in, or its wallet was added with a proof. -/
def ProvenFor (p : Platform) (w : World p) (inputs : List (Input Task (Outside p))) (publicKey userId : String) : Prop :=
  (∃ c row, row.publicKey = publicKey ∧ row.userId = userId ∧ ∃ t ∈ history (step p) (System.start w) inputs, CreatesOwner c row t) ∨
    ∃ c caller label tags proof signals,
      .start c (.addWallet caller publicKey label tags (some proof) (some signals)) ∈ inputs ∧ verifyZkProof p proof signals = true

/-- The holder of a key that another user watches is signed in as that user, and twice with one challenge. -/
theorem sessions_of_watchers :
    (¬ ∀ (p : Platform) (w : World p) (inputs : List (Input Task (Outside p))), Unforged p inputs → w.wallet.rows = [] →
      ∀ c session, (run (step p) (System.start w) inputs).returned c = some (.ok (.session session)) →
        ProvenFor p w inputs session.publicKey session.id) ∧
    ¬ ∀ (p : Platform) (w : World p) (inputs : List (Input Task (Outside p))), Unforged p inputs →
      ∀ c d transactionXdr now later session other, c ≠ d →
        .start c (.verifyAndIssueSession transactionXdr now) ∈ inputs → .start d (.verifyAndIssueSession transactionXdr later) ∈ inputs →
        (run (step p) (System.start w) inputs).returned c = some (.ok (.session session)) →
        (run (step p) (System.start w) inputs).returned d ≠ some (.ok (.session other)) := by
  obtain ⟨first,second⟩ := signsTwice_returned
  constructor
  · intro always
    rcases always oneChallenge emptyWorld signsTwice signsTwice_unforged rfl 2 eveSession first with
      ⟨c,row,_,_,t,listed,⟨outcome,proceeds⟩,⟨email,stands⟩,_⟩ | ⟨c,caller,label,tags,proof,signals,listed,_⟩
    · have nobody : (history (step oneChallenge) (System.start emptyWorld) signsTwice).any asksOwner = false := by decide +kernel
      have somebody : asksOwner t = true := by simp [asksOwner,proceeds,stands]
      exact absurd (List.any_eq_true.mpr ⟨t,listed,somebody⟩) (by simp [nobody])
    · simp [signsTwice,watched,holderSigns] at listed
  · intro always
    exact always oneChallenge emptyWorld signsTwice signsTwice_unforged 2 3 signedXdr 1700000060000 1700000060000 eveSession
      eveSession (by decide) (by simp [signsTwice,holderSigns]) (by simp [signsTwice,holderSigns]) first second

end StellarAlerts.Sep10
