import StellarAlerts.WatcherPlaces

/-!
What the row of a pending transaction keeps of the envelopes submitted for it. Where every
submission carries the signatures of the stored envelope, every pass counts what is stored, and
passes that tell signers neither overlap nor fail, the row holds all signers of all
envelopes and nobody is told twice (`signatures_kept`).
-/
namespace StellarAlerts.SignatureTracking
open Histories
open Interleaving hiding step
open MultisigCounting MultisigWatcher RemoteCalls StellarEnvelopes WatcherPlaces

section Conditions
variable (hash : String)

/-- The call is one by which a pass goes on with the transaction. -/
def processes : Query → Bool
  | .updateProgress pendingTx _ => pendingTx.innerTxHash = hash
  | .notify payload => payload.innerTxHash = hash
  | .updateNotified pendingTx _ => pendingTx.innerTxHash = hash
  | _ => false

/-- A pass has read whom was told and has not come to its end with the transaction. -/
def Busy (s : System) (c : Nat) : Prop := ∃ q, s.pending c = some q ∧ processes hash q = true

/-- The call tells a signer, or writes down who was told. -/
def tells : Query → Bool
  | .notify payload => payload.innerTxHash = hash
  | .updateNotified pendingTx _ => pendingTx.innerTxHash = hash
  | _ => false

section Signed
variable (sdk : Sdk) (networkPassphrase : String) (treasury : Treasury)

/-- A submission carries the signatures that the stored envelope carries, a pass counts what is stored, and it
    begins when no other pass is with the transaction. -/
def Current (s : System) (c : Nat) : Query → Prop
  | .upsert other data => other = hash → ∀ row, s.world.row hash = some row → ∀ key,
      signed sdk networkPassphrase treasury row.envelopeXdr key = true →
        signed sdk networkPassphrase treasury data.envelopeXdr key = true
  | .updateProgress pendingTx _ => pendingTx.innerTxHash = hash → ∀ row, s.world.row hash = some row → ∀ key,
      signed sdk networkPassphrase treasury pendingTx.envelopeXdr key = signed sdk networkPassphrase treasury row.envelopeXdr key
  | .findNotified other => other = hash → ∀ d, d ≠ c → ¬ Busy hash s d
  | _ => True

/-- Besides, signers are told and written down without failure and without being cut off. -/
def Meets (s : System) : Input Task Empty → Prop
  | .proceed c outcome => ∀ q, s.pending c = some q →
      Current hash sdk networkPassphrase treasury s c q ∧ (tells hash q = true → outcome = .ok)
  | .exit c => ∀ q, s.pending c = some q → tells hash q = false
  | _ => True

end Signed
end Conditions

section Kept
variable (sdk : Sdk) (networkPassphrase : String) (treasury : Treasury) (hash : String)

/-- Some envelope that was submitted carries a signature of the signer. -/
def everSigned (w : World) (key : String) : Bool :=
  (submissions w hash).any fun envelopeXdr => signed sdk networkPassphrase treasury envelopeXdr key

/-- The row holds the signers of all envelopes, their weight, and whether that is enough; the stored
    envelope carries all their signatures. -/
structure Recorded (w : World) : Prop where
  absent : w.row hash = none → submissions w hash = []
  signedBy : ∀ row, w.row hash = some row → ∀ key,
    key ∈ row.signedByJson ↔ everSigned sdk networkPassphrase treasury hash w key = true
  weight : ∀ row, w.row hash = some row →
    row.collectedWeight = weightWhere treasury (everSigned sdk networkPassphrase treasury hash w)
  status : ∀ row, w.row hash = some row → (row.status = .threshold_met ↔ requiredThreshold treasury ≤ row.collectedWeight)
  envelope : ∀ row, w.row hash = some row → ∀ key,
    signed sdk networkPassphrase treasury row.envelopeXdr key = everSigned sdk networkPassphrase treasury hash w key

variable {sdk networkPassphrase treasury hash} {w : World}

variable {progress : MultisigSignatureProgress}

theorem status_iff : statusOf progress = .threshold_met ↔ progress.thresholdMet = true := by
  cases met : progress.thresholdMet with
  | true => simp [statusOf,met]
  | false => simp [statusOf,met]

theorem everSigned_upsert {data : SubmissionData} (key : String) :
    everSigned sdk networkPassphrase treasury hash (exec w (.upsert hash data)).2 key =
      (everSigned sdk networkPassphrase treasury hash w key || signed sdk networkPassphrase treasury data.envelopeXdr key) := by
  simp [everSigned,exec_submissions]

theorem everSigned_other {q : Query} (none_ : ∀ data, q ≠ .upsert hash data) :
    submissions (exec w q).2 hash = submissions w hash := by
  rw [exec_submissions]
  cases q with
  | upsert other data =>
    have apart : other ≠ hash := by
      rintro rfl
      exact none_ data rfl
    simp [apart]
  | _ => simp

theorem recorded_counted {w' : World} {row : PendingMultisigTransaction} {envelopeXdr : String}
    (one : OneSigner sdk networkPassphrase treasury)
    (counts : count sdk networkPassphrase treasury envelopeXdr = .ok progress) (is : w'.row hash = some row)
    (data : row.collectedWeight = progress.collectedWeight ∧ row.signedByJson = progress.signedBy ∧ row.status = statusOf progress)
    (all : ∀ key, signed sdk networkPassphrase treasury envelopeXdr key = everSigned sdk networkPassphrase treasury hash w' key)
    (stored : ∀ key, signed sdk networkPassphrase treasury row.envelopeXdr key =
      everSigned sdk networkPassphrase treasury hash w' key) :
    Recorded sdk networkPassphrase treasury hash w' := by
  obtain ⟨members,weight,met⟩ := count_signed one counts
  obtain ⟨isWeight,isSignedBy,isStatus⟩ := data
  have same : signed sdk networkPassphrase treasury envelopeXdr = everSigned sdk networkPassphrase treasury hash w' := funext all
  have only : ∀ other, w'.row hash = some other → other = row := by
    intro other found
    rw [is] at found
    exact (Option.some.inj found).symm
  refine ⟨?_,?_,?_,?_,?_⟩
  · intro none_
    rw [is] at none_
    cases none_
  · rintro other found key
    rw [only other found,isSignedBy,members,all]
  · rintro other found
    rw [only other found,isWeight,weight,same]
  · rintro other found
    rw [only other found,isStatus,status_iff,met,isWeight]
  · rintro other found key
    rw [only other found,stored]

theorem recorded_exec (one : OneSigner sdk networkPassphrase treasury) {s : System} {c : Nat} {q : Query} {place : Place}
    (recorded : Recorded sdk networkPassphrase treasury hash s.world)
    (isAllowed : allowed hash sdk networkPassphrase treasury place q)
    (current : Current hash sdk networkPassphrase treasury s c q) : Recorded sdk networkPassphrase treasury hash (exec s.world q).2 := by
  have row := @exec_row s.world hash q
  -- a call that changes nothing of what is recorded
  have kept : (∀ data, q ≠ .upsert hash data) → (∀ r, (exec s.world q).2.row hash = some r → ∃ r', s.world.row hash = some r' ∧
      r.signedByJson = r'.signedByJson ∧ r.collectedWeight = r'.collectedWeight ∧ r.status = r'.status ∧
      r.envelopeXdr = r'.envelopeXdr) → ((exec s.world q).2.row hash = none → s.world.row hash = none) →
      Recorded sdk networkPassphrase treasury hash (exec s.world q).2 := by
    intro none_ same absent
    have union : everSigned sdk networkPassphrase treasury hash (exec s.world q).2 =
        everSigned sdk networkPassphrase treasury hash s.world := by
      funext key
      rw [everSigned,everSigned_other none_]
      rfl
    refine ⟨?_,?_,?_,?_,?_⟩
    · intro gone
      rw [everSigned_other none_]
      exact recorded.absent (absent gone)
    · intro r found key
      obtain ⟨r',was,signedBy,-,-,-⟩ := same r found
      rw [union,signedBy,recorded.signedBy r' was]
    · intro r found
      obtain ⟨r',was,-,weight,-,-⟩ := same r found
      rw [union,weight,recorded.weight r' was]
    · intro r found
      obtain ⟨r',was,-,weight,status,-⟩ := same r found
      rw [weight,status,recorded.status r' was]
    · intro r found key
      obtain ⟨r',was,-,-,-,envelope⟩ := same r found
      rw [union,envelope,recorded.envelope r' was]
  have unchanged : rowAfter hash (s.world.row hash) q = s.world.row hash → (∀ data, q ≠ .upsert hash data) →
      Recorded sdk networkPassphrase treasury hash (exec s.world q).2 := by
    intro same none_
    rw [same] at row
    refine kept none_ ?_ (fun gone => row ▸ gone)
    intro r found
    rw [row] at found
    exact ⟨r,found,rfl,rfl,rfl,rfl⟩
  cases q with
  | upsert other data =>
    by_cases own : other = hash
    · subst own
      obtain ⟨-,progress,counts,is⟩ := isAllowed
      have all : ∀ key, signed sdk networkPassphrase treasury data.envelopeXdr key =
          everSigned sdk networkPassphrase treasury other (exec s.world (.upsert other data)).2 key := by
        intro key
        rw [everSigned_upsert]
        cases before : everSigned sdk networkPassphrase treasury other s.world key with
        | false => rfl
        | true =>
          cases stored : s.world.row other with
          | none =>
            rw [everSigned,recorded.absent stored] at before
            cases before
          | some r =>
            have covered := current rfl r stored key ((recorded.envelope r stored key).trans before)
            rw [covered]
            rfl
      rw [rowAfter,if_pos rfl] at row
      cases stored : s.world.row other with
      | none =>
        rw [stored] at row
        exact recorded_counted one counts row (by rw [is]; exact ⟨rfl,rfl,rfl⟩) all all
      | some r =>
        rw [stored] at row
        exact recorded_counted one counts row (by rw [is]; exact ⟨rfl,rfl,rfl⟩) all all
    · exact unchanged (if_neg own) fun data' same => own (by cases same; rfl)
  | updateProgress pendingTx data =>
    by_cases own : pendingTx.innerTxHash = hash
    · obtain ⟨⟨progress,counts,is⟩,-⟩ := isAllowed
      rw [rowAfter,if_pos own] at row
      cases stored : s.world.row hash with
      | none =>
        rw [stored] at row
        exact unchanged (by rw [rowAfter,if_pos own,stored]; rfl) (fun _ same => by cases same)
      | some r =>
        rw [stored] at row
        have union : ∀ key, everSigned sdk networkPassphrase treasury hash (exec s.world (.updateProgress pendingTx data)).2 key =
            everSigned sdk networkPassphrase treasury hash s.world key := by
          intro key
          have none_ : ∀ data', Query.updateProgress pendingTx data ≠ .upsert hash data' := fun _ same => by cases same
          rw [everSigned,everSigned_other none_]
          rfl
        refine recorded_counted one counts row (by rw [is]; exact ⟨rfl,rfl,rfl⟩) ?_ ?_
        · intro key
          rw [union,current own r stored key,recorded.envelope r stored]
        · intro key
          rw [union,← recorded.envelope r stored]
          rfl
    · exact unchanged (if_neg own) (fun _ same => by cases same)
  | updateNotified pendingTx notifiedJson =>
    by_cases own : pendingTx.innerTxHash = hash
    · rw [rowAfter,if_pos own] at row
      refine kept (fun _ same => by cases same) ?_ ?_
      · intro r found
        rw [row] at found
        obtain ⟨r',was,rfl⟩ := Option.map_eq_some_iff.mp found
        exact ⟨r',was,rfl,rfl,rfl,rfl⟩
      · intro gone
        rw [row] at gone
        exact Option.map_eq_none_iff.mp gone
    · exact unchanged (if_neg own) (fun _ same => by cases same)
  | findPending => exact unchanged rfl (fun _ same => by cases same)
  | findNotified other => exact unchanged rfl (fun _ same => by cases same)
  | notify payload => exact unchanged rfl (fun _ same => by cases same)

end Kept

section Telling
variable {sdk : Sdk} {networkPassphrase : String} {treasury : Treasury} {hash : String}

variable (hash) in
/-- Everyone who was told is written down. -/
def AllNoted (w : World) : Prop := ∀ key ∈ told w hash, ∃ row, w.row hash = some row ∧ key ∈ row.notifiedJson

variable (hash) in
/-- What a pass knows of those who were told. -/
def Knows (w : World) : Place → Prop
  | .away => False
  | .read previous => AllNoted hash w ∧ ∀ key ∈ told w hash, key ∈ previous
  | .telling previous more => (∃ row, w.row hash = some row) ∧ (∀ key ∈ told w hash, key ∈ previous ∨ key ∈ more) ∧
      (more = [] → AllNoted hash w)

variable (hash) in
/-- Where each thread stands with the transaction. -/
def placeOf (s : System) (c : Nat) : Option Place := s.places (after hash) .away c

variable (hash) in
structure Telling (s : System) : Prop where
  nodup : (told s.world hash).Nodup
  one : ∀ c d, Busy hash s c → Busy hash s d → c = d
  noted : (∀ c, ¬ Busy hash s c) → AllNoted hash s.world
  knows : ∀ c place, Busy hash s c → placeOf hash s c = some place → Knows hash s.world place

variable (hash) in
/-- Nobody is told, and nobody who was told is forgotten. -/
structure Preserved (w w' : World) : Prop where
  told_eq : told w' hash = told w hash
  there : (∃ row, w.row hash = some row) → ∃ row, w'.row hash = some row
  noted : AllNoted hash w → AllNoted hash w'

theorem Preserved.knows {w w' : World} (preserved : Preserved hash w w') {place : Place} (knows : Knows hash w place) :
    Knows hash w' place := by
  cases place with
  | away => exact knows
  | read previous => exact ⟨preserved.noted knows.1,preserved.told_eq ▸ knows.2⟩
  | telling previous more =>
    exact ⟨preserved.there knows.1,preserved.told_eq ▸ knows.2.1,fun none_ => preserved.noted (knows.2.2 none_)⟩

theorem preserved_refl (w : World) : Preserved hash w w := ⟨rfl,id,id⟩

theorem preserved_exec (w : World) {q : Query} (silent : tells hash q = false) : Preserved hash w (exec w q).2 := by
  have same : told (exec w q).2 hash = told w hash := by
    rw [exec_told]
    cases q with
    | notify payload =>
      have other : payload.innerTxHash ≠ hash := of_decide_eq_false silent
      simp [other]
    | _ => simp
  have row := @exec_row w hash q
  -- what is noted in a row stays noted
  have keeps : ∀ r, w.row hash = some r → ∃ r', (exec w q).2.row hash = some r' ∧ r'.notifiedJson = r.notifiedJson := by
    intro r found
    rw [found] at row
    cases q with
    | upsert other data =>
      by_cases own : other = hash
      · rw [rowAfter,if_pos own] at row
        exact ⟨_,row,rfl⟩
      · rw [rowAfter,if_neg own] at row
        exact ⟨_,row,rfl⟩
    | updateProgress pendingTx data =>
      by_cases own : pendingTx.innerTxHash = hash
      · rw [rowAfter,if_pos own] at row
        exact ⟨_,row,rfl⟩
      · rw [rowAfter,if_neg own] at row
        exact ⟨_,row,rfl⟩
    | updateNotified pendingTx notifiedJson =>
      rw [rowAfter,if_neg (of_decide_eq_false silent)] at row
      exact ⟨_,row,rfl⟩
    | _ => exact ⟨_,row,rfl⟩
  refine ⟨same,?_,?_⟩
  · rintro ⟨r,found⟩
    obtain ⟨r',now,-⟩ := keeps r found
    exact ⟨r',now⟩
  · intro noted key listed
    rw [same] at listed
    obtain ⟨r,found,isNoted⟩ := noted key listed
    obtain ⟨r',now,kept⟩ := keeps r found
    exact ⟨r',now,kept ▸ isNoted⟩

section Threads
variable {s s' : System} {c : Nat}

theorem busy_of_threads {d : Nat} (same : s'.threads d = s.threads d) : Busy hash s' d ↔ Busy hash s d := by
  rw [Busy,Busy,System.pending,System.pending,same]
theorem placeOf_of_threads {d : Nat} (same : s'.threads d = s.threads d) : placeOf hash s' d = placeOf hash s d := by
  rw [placeOf,placeOf,System.places,System.places,same]

theorem telling_settles (telling : Telling hash s) (others : ∀ d, d ≠ c → s'.threads d = s.threads d)
    (preserved : Preserved hash s.world s'.world) (idle : ¬ Busy hash s' c) (noted : Busy hash s c → AllNoted hash s'.world) :
    Telling hash s' := by
  have old : ∀ d, Busy hash s' d → d ≠ c ∧ Busy hash s d := by
    intro d busy
    have apart : d ≠ c := by
      rintro rfl
      exact idle busy
    exact ⟨apart,(busy_of_threads (others d apart)).mp busy⟩
  refine ⟨preserved.told_eq ▸ telling.nodup,fun a b first second => telling.one a b (old a first).2 (old b second).2,?_,?_⟩
  · intro quiet
    by_cases was : Busy hash s c
    · exact noted was
    · refine preserved.noted (telling.noted fun d busy => ?_)
      by_cases own : d = c
      · exact was (own ▸ busy)
      · exact quiet d ((busy_of_threads (others d own)).mpr busy)
  · intro d place busy is
    obtain ⟨apart,was⟩ := old d busy
    rw [placeOf_of_threads (others d apart)] at is
    exact preserved.knows (telling.knows d place was is)

theorem telling_goes (others : ∀ d, d ≠ c → s'.threads d = s.threads d) (alone : ∀ d, d ≠ c → ¬ Busy hash s d)
    (nodup : (told s'.world hash).Nodup) (knows : ∀ place, Busy hash s' c → placeOf hash s' c = some place → Knows hash s'.world place)
    (noted : ¬ Busy hash s' c → AllNoted hash s'.world) : Telling hash s' := by
  have only : ∀ d, Busy hash s' d → d = c := by
    intro d busy
    by_contra apart
    exact alone d apart ((busy_of_threads (others d apart)).mp busy)
  refine ⟨nodup,fun a b first second => (only a first).trans (only b second).symm,fun quiet => noted (quiet c),?_⟩
  intro d place busy is
  obtain rfl := only d busy
  exact knows place busy is

variable (sdk networkPassphrase treasury hash) in
/-- Every thread follows from its place. -/
def IsPlaced (s : System) : Prop :=
  Placed (allowed hash sdk networkPassphrase treasury) (after hash) (fun _ place => place.Clear) .away s

theorem busy_of_unclear (placed : IsPlaced sdk networkPassphrase treasury hash s) {place : Place}
    (is : placeOf hash s c = some place) (unclear : ¬ place.Clear) : Busy hash s c := by
  rw [placeOf,System.places] at is
  obtain ⟨t,running,rfl⟩ := Option.map_eq_some_iff.mp is
  have follows := placed c t running
  obtain ⟨made,rest⟩ := t
  cases rest with
  | returned a => exact absurd follows unclear
  | call q next =>
    have isAllowed := follows.1
    refine ⟨q,pending_of_at ⟨made,next,running⟩,?_⟩
    cases q with
    | upsert other data => exact absurd isAllowed.1 unclear
    | findPending => exact absurd isAllowed unclear
    | findNotified other => exact absurd isAllowed unclear
    | updateProgress pendingTx data =>
      by_cases own : pendingTx.innerTxHash = hash
      · exact decide_eq_true own
      · have clear := isAllowed.2
        rw [if_neg own] at clear
        exact absurd clear unclear
    | notify payload =>
      by_cases own : payload.innerTxHash = hash
      · exact decide_eq_true own
      · rw [allowed,if_neg own] at isAllowed
        exact absurd isAllowed unclear
    | updateNotified pendingTx notifiedJson =>
      by_cases own : pendingTx.innerTxHash = hash
      · exact decide_eq_true own
      · rw [allowed,if_neg own] at isAllowed
        exact absurd isAllowed unclear

theorem not_busy_away (placed : IsPlaced sdk networkPassphrase treasury hash s) (is : placeOf hash s c = some .away) :
    ¬ Busy hash s c := by
  rintro ⟨q,stands,goes⟩
  obtain ⟨place,isPlace,isAllowed⟩ := placed_pending placed stands
  obtain rfl : place = .away := Option.some.inj (isPlace.symm.trans is)
  cases q with
  | updateProgress pendingTx data =>
    have own := isAllowed.2
    rw [if_pos (of_decide_eq_true goes)] at own
    obtain ⟨_,same⟩ := own
    cases same
  | notify payload =>
    rw [allowed,if_pos (of_decide_eq_true goes)] at isAllowed
    obtain ⟨_,_,same,_⟩ := isAllowed
    cases same
  | updateNotified pendingTx notifiedJson =>
    rw [allowed,if_pos (of_decide_eq_true goes)] at isAllowed
    obtain ⟨_,_,same,_⟩ := isAllowed
    cases same
  | _ => cases goes

theorem preserved_respond (w : World) {q : Query} (silent : tells hash q = false) (outcome : Outcome) :
    Preserved hash w (respond exec w q outcome).2 := by
  cases outcome with
  | failed message => exact preserved_refl w
  | ok => exact preserved_exec w silent
  | lost message => exact preserved_exec w silent

theorem updateRow_ok {w : World} {other : String} {change : PendingMultisigTransaction → PendingMultisigTransaction} {u : Unit}
    (answered : (w.updateRow other change).1 = .ok u) : ∃ row, w.row other = some row := by
  rw [World.updateRow] at answered
  cases found : w.row other with
  | none =>
    rw [found] at answered
    cases answered
  | some row => exact ⟨row,rfl⟩

/-- The step that answers the call of a thread. -/
structure Proceeds (s s' : System) (c : Nat) (q : Query) (outcome : Outcome) (place : Place) : Prop where
  stands : s.pending c = some q
  others : ∀ d, d ≠ c → s'.threads d = s.threads d
  before : placeOf hash s c = some place
  after : placeOf hash s' c = some (after hash place q (respond exec s.world q outcome).1)
  world : s'.world = (respond exec s.world q outcome).2

theorem proceeds_of_running {made : List (Answered Query Value)} {q : Query}
    {next : Except String (Value q) → Program Query Value (Except String Unit)} (running : s.threads c = some ⟨made,.call q next⟩)
    (outcome : Outcome) : @Proceeds hash s ((s.setWorld (respond exec s.world q outcome).2).put c
      (some ⟨made ++ [⟨q,(respond exec s.world q outcome).1⟩],next (respond exec s.world q outcome).1⟩)) c q outcome
        ((Thread.mk made (.call q next)).place (after hash) .away) := by
  refine ⟨pending_of_at ⟨made,next,running⟩,fun d apart => ?_,?_,?_,rfl⟩
  · rw [System.put_threads,if_neg apart]
    rfl
  · rw [placeOf,System.places,running]
    rfl
  · rw [placeOf,System.places,System.put_threads,if_pos rfl,Option.map_some,
      Thread.place_append (after hash) .away made q _ (.call q next)]

variable {q : Query} {outcome : Outcome} {place : Place}

theorem not_busy_of_pending (stands : s.pending c = some q) (no : processes hash q = false) : ¬ Busy hash s c := by
  rintro ⟨other,also,goes⟩
  obtain rfl := Option.some.inj (stands.symm.trans also)
  rw [no] at goes
  cases goes

theorem telling_unrelated (telling : Telling hash s) (placed' : IsPlaced sdk networkPassphrase treasury hash s')
    (proceeds : @Proceeds hash s s' c q outcome place) (no : processes hash q = false) (silent : tells hash q = false)
    (moved : after hash place q (respond exec s.world q outcome).1 = .away) : Telling hash s' := by
  have arrives := proceeds.after
  rw [moved] at arrives
  refine telling_settles telling proceeds.others ?_ (not_busy_away placed' arrives) fun busy =>
    absurd busy (not_busy_of_pending proceeds.stands no)
  rw [proceeds.world]
  exact preserved_respond s.world silent outcome

theorem telling_findNotified {other : String} (own : other = hash) (telling : Telling hash s)
    (placed' : IsPlaced sdk networkPassphrase treasury hash s') (proceeds : @Proceeds hash s s' c (.findNotified other) outcome place)
    (current : ∀ d, d ≠ c → ¬ Busy hash s d) : Telling hash s' := by
  have idle : ¬ Busy hash s c := not_busy_of_pending proceeds.stands rfl
  have quiet : ∀ d, ¬ Busy hash s d := by
    intro d busy
    by_cases same : d = c
    · exact idle (same ▸ busy)
    · exact current d same busy
  have noted := telling.noted quiet
  have sameWorld : s'.world = s.world := by
    rw [proceeds.world]
    cases outcome with
    | _ => rfl
  refine telling_goes proceeds.others current (sameWorld ▸ telling.nodup) ?_ fun _ => sameWorld ▸ noted
  intro arrived busy is
  have arrives := proceeds.after
  cases outcome with
  | ok =>
    have moved : after hash place (.findNotified other) (respond exec s.world (.findNotified other) .ok).1 =
        .read (Option.getD ((s.world.row other).map (·.notifiedJson)) []) := if_pos own
    rw [moved,is] at arrives
    obtain rfl := Option.some.inj arrives
    rw [sameWorld]
    refine ⟨noted,fun key listed => ?_⟩
    obtain ⟨row,found,isNoted⟩ := noted key listed
    rw [own,found]
    exact isNoted
  | failed message => exact absurd busy (not_busy_away placed' arrives)
  | lost message => exact absurd busy (not_busy_away placed' arrives)

variable {pendingTx : PendingTxRecord}

theorem telling_updateProgress {data : ProgressData} (own : pendingTx.innerTxHash = hash) (telling : Telling hash s)
    (placed' : IsPlaced sdk networkPassphrase treasury hash s')
    (proceeds : @Proceeds hash s s' c (.updateProgress pendingTx data) outcome place)
    (isAllowed : allowed hash sdk networkPassphrase treasury place (.updateProgress pendingTx data)) : Telling hash s' := by
  have busy : Busy hash s c := ⟨_,proceeds.stands,decide_eq_true own⟩
  have reads := isAllowed.2
  rw [if_pos own] at reads
  obtain ⟨previous,rfl⟩ := reads
  obtain ⟨noted,known⟩ := telling.knows c _ busy proceeds.before
  have preserved : Preserved hash s.world s'.world := by
    rw [proceeds.world]
    exact preserved_respond s.world rfl outcome
  have alone : ∀ d, d ≠ c → ¬ Busy hash s d := fun d apart other => apart (telling.one d c other busy)
  refine telling_goes proceeds.others alone (preserved.told_eq ▸ telling.nodup) ?_ fun _ => preserved.noted noted
  intro arrived busy' is
  have arrives := proceeds.after
  cases answered : (respond exec s.world (.updateProgress pendingTx data) outcome).1 with
  | error message =>
    rw [answered] at arrives
    exact absurd busy' (not_busy_away placed' arrives)
  | ok u =>
    have moved : after hash (.read previous) (.updateProgress pendingTx data) (.ok u) = .telling previous [] := if_pos own
    rw [answered,moved,is] at arrives
    obtain rfl := Option.some.inj arrives
    have there : ∃ row, s.world.row pendingTx.innerTxHash = some row := by
      cases outcome with
      | ok => exact updateRow_ok answered
      | failed message => cases answered
      | lost message => cases answered
    rw [own] at there
    refine ⟨preserved.there there,fun key listed => .inl ?_,fun _ => preserved.noted noted⟩
    exact known key (preserved.told_eq ▸ listed)

theorem telling_notify {payload : SignerApprovalNeeded} (own : payload.innerTxHash = hash) (telling : Telling hash s)
    (placed' : IsPlaced sdk networkPassphrase treasury hash s') (proceeds : @Proceeds hash s s' c (.notify payload) .ok place)
    (isAllowed : allowed hash sdk networkPassphrase treasury place (.notify payload)) : Telling hash s' := by
  have busy : Busy hash s c := ⟨_,proceeds.stands,decide_eq_true own⟩
  rw [allowed,if_pos own] at isAllowed
  obtain ⟨previous,more,rfl,notPrevious,notMore⟩ := isAllowed
  obtain ⟨there,known,-⟩ := telling.knows c _ busy proceeds.before
  have now : told s'.world hash = told s.world hash ++ [payload.signerPublicKey] := by
    rw [proceeds.world]
    show told (exec s.world (.notify payload)).2 hash = _
    rw [exec_told]
    simp [own]
  have moved : after hash (.telling previous more) (.notify payload) (respond exec s.world (.notify payload) .ok).1 =
      .telling previous (more ++ [payload.signerPublicKey]) := if_pos own
  have arrives := proceeds.after
  rw [moved] at arrives
  have alone : ∀ d, d ≠ c → ¬ Busy hash s d := fun d apart other => apart (telling.one d c other busy)
  refine telling_goes proceeds.others alone ?_ ?_ fun idle => absurd (busy_of_unclear placed' arrives (by simp [Place.Clear])) idle
  · rw [now]
    refine List.nodup_append.mpr ⟨telling.nodup,List.nodup_singleton _,?_⟩
    rintro key isTold other isNew rfl
    obtain rfl := List.mem_singleton.mp isNew
    rcases known _ isTold with before | since
    · exact notPrevious before
    · exact notMore since
  · intro arrived _ is
    obtain rfl := Option.some.inj (arrives.symm.trans is)
    refine ⟨?_,fun key listed => ?_,by simp⟩
    · rw [proceeds.world]
      exact there
    · rw [now,List.mem_append,List.mem_singleton] at listed
      rw [List.mem_append,List.mem_singleton]
      rcases listed with before | rfl
      · exact (known key before).imp_right .inl
      · exact .inr (.inr rfl)

theorem telling_updateNotified {notifiedJson : List String} (own : pendingTx.innerTxHash = hash) (telling : Telling hash s)
    (placed' : IsPlaced sdk networkPassphrase treasury hash s')
    (proceeds : @Proceeds hash s s' c (.updateNotified pendingTx notifiedJson) .ok place)
    (isAllowed : allowed hash sdk networkPassphrase treasury place (.updateNotified pendingTx notifiedJson)) :
    Telling hash s' := by
  have busy : Busy hash s c := ⟨_,proceeds.stands,decide_eq_true own⟩
  rw [allowed,if_pos own] at isAllowed
  obtain ⟨previous,more,rfl,written⟩ := isAllowed
  obtain ⟨⟨row,found⟩,known,-⟩ := telling.knows c _ busy proceeds.before
  have same : told s'.world hash = told s.world hash := by
    rw [proceeds.world]
    show told (exec s.world (.updateNotified pendingTx notifiedJson)).2 hash = _
    rw [exec_told]
    exact List.append_nil _
  have now : s'.world.row hash = some { row with notifiedJson } := by
    rw [proceeds.world]
    show (exec s.world (.updateNotified pendingTx notifiedJson)).2.row hash = _
    rw [exec_row,rowAfter,if_pos own,found]
    rfl
  have arrives : placeOf hash s' c = some .away := proceeds.after
  have alone : ∀ d, d ≠ c → ¬ Busy hash s d := fun d apart other => apart (telling.one d c other busy)
  refine telling_goes proceeds.others alone (same ▸ telling.nodup) (fun _ busy' _ => absurd busy' (not_busy_away placed' arrives)) ?_
  intro _ key listed
  rw [same] at listed
  exact ⟨_,now,written key (known key listed)⟩

theorem telling_proceed (telling : Telling hash s) (placed' : IsPlaced sdk networkPassphrase treasury hash s')
    (proceeds : @Proceeds hash s s' c q outcome place) (isAllowed : allowed hash sdk networkPassphrase treasury place q)
    (current : Current hash sdk networkPassphrase treasury s c q) (surely : tells hash q = true → outcome = .ok) :
    Telling hash s' := by
  have unrelated : processes hash q = false → tells hash q = false →
      after hash place q (respond exec s.world q outcome).1 = .away → Telling hash s' :=
    telling_unrelated telling placed' proceeds
  cases q with
  | upsert other data =>
    refine unrelated rfl rfl ?_
    cases (respond exec s.world (.upsert other data) outcome).1 <;> rfl
  | findPending =>
    refine unrelated rfl rfl ?_
    cases (respond exec s.world .findPending outcome).1 <;> rfl
  | findNotified other =>
    by_cases own : other = hash
    · exact telling_findNotified own telling placed' proceeds (current own)
    · refine unrelated rfl rfl ?_
      cases (respond exec s.world (.findNotified other) outcome).1 with
      | error message => rfl
      | ok existing => exact if_neg own
  | updateProgress pendingTx data =>
    by_cases own : pendingTx.innerTxHash = hash
    · exact telling_updateProgress own telling placed' proceeds isAllowed
    · refine unrelated (decide_eq_false own) rfl ?_
      cases (respond exec s.world (.updateProgress pendingTx data) outcome).1 with
      | error message => rfl
      | ok u => exact if_neg own
  | notify payload =>
    by_cases own : payload.innerTxHash = hash
    · obtain rfl := surely (decide_eq_true own)
      exact telling_notify own telling placed' proceeds isAllowed
    · refine unrelated (decide_eq_false own) (decide_eq_false own) ?_
      cases (respond exec s.world (.notify payload) outcome).1 with
      | error message => rfl
      | ok u => exact if_neg own
  | updateNotified pendingTx notifiedJson =>
    by_cases own : pendingTx.innerTxHash = hash
    · obtain rfl := surely (decide_eq_true own)
      exact telling_updateNotified own telling placed' proceeds isAllowed
    · refine unrelated (decide_eq_false own) (decide_eq_false own) ?_
      cases (respond exec s.world (.updateNotified pendingTx notifiedJson) outcome).1 <;> rfl

end Threads
end Telling

section Runs
variable {sdk : Sdk} {networkPassphrase : String} {treasury : Treasury} {hash : String}

variable (sdk networkPassphrase treasury hash) in
/-- What holds in every state of a run whose steps all meet the conditions. -/
structure Sound (s : System) : Prop where
  placed : IsPlaced sdk networkPassphrase treasury hash s
  recorded : Recorded sdk networkPassphrase treasury hash s.world
  telling : Telling hash s

theorem sound_start : Sound sdk networkPassphrase treasury hash (System.start ⟨[],[],[]⟩) := by
  refine ⟨placed_start _,⟨fun _ => rfl,?_,?_,?_,?_⟩,⟨List.nodup_nil,?_,?_,?_⟩⟩
  all_goals simp [World.row,System.start,Busy,System.pending,AllNoted,told]

theorem sound_step (one : OneSigner sdk networkPassphrase treasury) {s : System} (sound : Sound sdk networkPassphrase treasury hash s)
    {i : Input Task Empty} (meets : Meets hash sdk networkPassphrase treasury s i) :
    Sound sdk networkPassphrase treasury hash (step sdk networkPassphrase treasury s i).2 := by
  have placed' : IsPlaced sdk networkPassphrase treasury hash (step sdk networkPassphrase treasury s i).2 :=
    placed_step program_follows sound.placed i
  rcases step_cases exec (Task.program sdk networkPassphrase treasury) Empty.elim s i with same | ⟨c,task,rfl,idle,moved⟩ |
    ⟨c,outcome,made,q,next,rfl,running,moved⟩ | ⟨c,rfl,moved⟩ | ⟨o,_⟩
  · rw [step,same] at placed' ⊢
    exact sound
  · rw [step,moved] at placed' ⊢
    have arrives : placeOf hash (s.put c (some ⟨[],task.program sdk networkPassphrase treasury⟩)) c = some .away := by
      rw [placeOf,System.places,System.put_threads,if_pos rfl]
      rfl
    refine ⟨placed',sound.recorded,telling_settles sound.telling (c := c) (fun d apart => ?_) (preserved_refl _)
      (not_busy_away placed' arrives) ?_⟩
    · rw [System.put_threads,if_neg apart]
    · rintro ⟨q,stands,-⟩
      exact absurd (at_of_pending stands) (idle q)
  · obtain ⟨current,surely⟩ := meets q (pending_of_at ⟨made,next,running⟩)
    have isAllowed := (sound.placed c _ running).1
    have proceeds := @proceeds_of_running hash s c made q next running outcome
    rw [step,moved] at placed' ⊢
    refine ⟨placed',?_,telling_proceed sound.telling placed' proceeds isAllowed current surely⟩
    rw [proceeds.world]
    cases outcome with
    | failed message => exact sound.recorded
    | ok => exact recorded_exec one sound.recorded isAllowed current
    | lost message => exact recorded_exec one sound.recorded isAllowed current
  · rw [step,moved] at placed' ⊢
    refine ⟨placed',sound.recorded,telling_settles sound.telling (c := c) (fun d apart => ?_) (preserved_refl _) ?_ ?_⟩
    · rw [System.put_threads,if_neg apart]
    · rintro ⟨q,stands,-⟩
      simp [System.pending,System.put_threads] at stands
    · rintro ⟨q,stands,goes⟩
      have silent := meets q stands
      obtain ⟨place,is,isAllowed⟩ := placed_pending sound.placed stands
      cases q with
      | updateProgress pendingTx data =>
        have reads := isAllowed.2
        rw [if_pos (of_decide_eq_true goes)] at reads
        obtain ⟨previous,rfl⟩ := reads
        exact (sound.telling.knows c _ ⟨_,stands,goes⟩ is).1
      | notify payload => exact absurd goes (by rw [show processes hash (.notify payload) = false from silent]; decide)
      | updateNotified pendingTx notifiedJson =>
        exact absurd goes (by rw [show processes hash (.updateNotified pendingTx notifiedJson) = false from silent]; decide)
      | _ => cases goes
  · exact o.elim

theorem exec_there {w : World} {row : PendingMultisigTransaction} (found : w.row hash = some row) (q : Query) :
    ∃ row', (exec w q).2.row hash = some row' := by
  rw [exec_row,found]
  cases q with
  | upsert other data =>
    rw [rowAfter]
    split <;> exact ⟨_,rfl⟩
  | updateProgress pendingTx data =>
    rw [rowAfter]
    split <;> exact ⟨_,rfl⟩
  | updateNotified pendingTx notifiedJson =>
    rw [rowAfter]
    split <;> exact ⟨_,rfl⟩
  | _ => exact ⟨row,rfl⟩

theorem everSigned_exec {w : World} (q : Query) {key : String}
    (has : everSigned sdk networkPassphrase treasury hash w key = true) :
    everSigned sdk networkPassphrase treasury hash (exec w q).2 key = true := by
  rw [everSigned,exec_submissions,List.any_append,Bool.or_eq_true]
  exact .inl has

variable (hash) in
/-- The row keeps its signers, its weight and a threshold that was met. -/
def Grows (before after : World) : Prop :=
  ∀ row, before.row hash = some row → ∃ row', after.row hash = some row' ∧ row.signedByJson ⊆ row'.signedByJson ∧
    row.collectedWeight ≤ row'.collectedWeight ∧ (row.status = .threshold_met → row'.status = .threshold_met)

theorem grows_of_recorded {before after : World} (first : Recorded sdk networkPassphrase treasury hash before)
    (second : Recorded sdk networkPassphrase treasury hash after)
    (there : ∀ row, before.row hash = some row → ∃ row', after.row hash = some row')
    (more : ∀ key, everSigned sdk networkPassphrase treasury hash before key = true →
      everSigned sdk networkPassphrase treasury hash after key = true) : Grows hash before after := by
  intro row found
  obtain ⟨row',now⟩ := there row found
  have heavier : row.collectedWeight ≤ row'.collectedWeight := by
    rw [first.weight row found,second.weight row' now]
    exact weightWhere_mono more
  refine ⟨row',now,?_,heavier,?_⟩
  · intro key listed
    exact (second.signedBy row' now key).mpr (more key ((first.signedBy row found key).mp listed))
  · intro met
    exact (second.status row' now).mpr (((first.status row found).mp met).trans heavier)

theorem grows_step (one : OneSigner sdk networkPassphrase treasury) {s : System} (sound : Sound sdk networkPassphrase treasury hash s)
    {i : Input Task Empty} (meets : Meets hash sdk networkPassphrase treasury s i) :
    Grows hash s.world (step sdk networkPassphrase treasury s i).2.world := by
  have sound' := sound_step one sound meets
  rcases world_cases exec (Task.program sdk networkPassphrase treasury) Empty.elim s i with same | ⟨c,outcome,q,-,-,-,moved⟩ | ⟨o,_⟩
  · have unmoved : (step sdk networkPassphrase treasury s i).2.world = s.world := same
    rw [unmoved]
    exact fun row found => ⟨row,found,List.Subset.refl _,Nat.le_refl _,id⟩
  · have executed : (step sdk networkPassphrase treasury s i).2.world = (exec s.world q).2 := moved
    refine grows_of_recorded sound.recorded sound'.recorded ?_ ?_
    · intro row found
      rw [executed]
      exact exec_there found q
    · intro key has
      rw [executed]
      exact everSigned_exec q has
  · exact o.elim

abbrev Transition := Histories.Transition System (Input Task Empty) (Option (Answered Query Value))

variable (sdk networkPassphrase treasury hash) in
/-- The row of a transaction whose envelopes were submitted holds the signers of all of them and
    their weight, no step took anything away from it, and nobody was told twice. -/
structure Kept (steps : List Transition) (s : System) : Prop where
  there : submissions s.world hash ≠ [] → ∃ row, s.world.row hash = some row
  signedBy : ∀ row, s.world.row hash = some row → ∀ key,
    key ∈ row.signedByJson ↔ everSigned sdk networkPassphrase treasury hash s.world key = true
  weight : ∀ row, s.world.row hash = some row →
    row.collectedWeight = weightWhere treasury (everSigned sdk networkPassphrase treasury hash s.world)
  grows : ∀ t ∈ steps, Grows hash t.before.world t.after.world
  once : (told s.world hash).Nodup

theorem sound_run (one : OneSigner sdk networkPassphrase treasury) (inputs : List (Input Task Empty)) :
    (∀ t ∈ history (step sdk networkPassphrase treasury) (System.start ⟨[],[],[]⟩) inputs,
      Meets hash sdk networkPassphrase treasury t.before t.input) →
      Sound sdk networkPassphrase treasury hash (run (step sdk networkPassphrase treasury) (System.start ⟨[],[],[]⟩) inputs) ∧
        ∀ t ∈ history (step sdk networkPassphrase treasury) (System.start ⟨[],[],[]⟩) inputs,
          Grows hash t.before.world t.after.world := by
  refine @history_rec _ _ _ (step sdk networkPassphrase treasury) (fun past s =>
    (∀ t ∈ past, Meets hash sdk networkPassphrase treasury t.before t.input) →
      Sound sdk networkPassphrase treasury hash s ∧ ∀ t ∈ past, Grows hash t.before.world t.after.world) _ ?_ ?_ inputs
  · intro _
    exact ⟨sound_start,fun t listed => absurd listed List.not_mem_nil⟩
  · intro past s i sofar meets
    obtain ⟨sound,grown⟩ := sofar fun t listed => meets t (List.mem_append_left _ listed)
    have now : Meets hash sdk networkPassphrase treasury s i :=
      meets (transition (step sdk networkPassphrase treasury) s i) (List.mem_append_right _ (List.mem_singleton_self _))
    refine ⟨sound_step one sound now,fun t listed => ?_⟩
    rcases List.mem_append.mp listed with earlier | last
    · exact grown t earlier
    · obtain rfl := List.mem_singleton.mp last
      exact grows_step one sound now

/-- In every run of submissions and passes whose steps all meet the conditions, the row keeps the signers of
    all envelopes, and every signer is told once at most. -/
theorem signatures_kept (sdk : Sdk) (networkPassphrase : String) (treasury : Treasury) (one : OneSigner sdk networkPassphrase treasury)
    (hash : String) (inputs : List (Input Task Empty))
    (meets : ∀ t ∈ history (step sdk networkPassphrase treasury) (System.start ⟨[],[],[]⟩) inputs,
      Meets hash sdk networkPassphrase treasury t.before t.input) :
    Kept sdk networkPassphrase treasury hash (history (step sdk networkPassphrase treasury) (System.start ⟨[],[],[]⟩) inputs)
      (run (step sdk networkPassphrase treasury) (System.start ⟨[],[],[]⟩) inputs) := by
  obtain ⟨sound,grows⟩ := sound_run one inputs meets
  refine ⟨?_,sound.recorded.signedBy,sound.recorded.weight,grows,sound.telling.nodup⟩
  intro some_
  cases found : (run (step sdk networkPassphrase treasury) (System.start ⟨[],[],[]⟩) inputs).world.row hash with
  | none => exact absurd (sound.recorded.absent found) some_
  | some row => exact ⟨row,rfl⟩

end Runs

section Submissions
variable {sdk : Sdk} {networkPassphrase : String} {treasury : Treasury} {hash envelopeXdr : String} {progress : MultisigSignatureProgress}
variable {s : System} {c : Nat}

theorem track_eq (hashed : innerTxHash sdk networkPassphrase envelopeXdr = .ok hash)
    (counts : count sdk networkPassphrase treasury envelopeXdr = .ok progress) :
    (Task.track treasury.publicKey envelopeXdr).program sdk networkPassphrase treasury =
      .call (.upsert hash (submissionData envelopeXdr progress)) .returned := by
  rw [Task.program,trackPendingTransaction,if_neg (not_not.mpr rfl),hashed,counts]
  rfl

/-- The state in which a submission stands at its write. -/
def submitting (s : System) (c : Nat) (hash : String) (data : SubmissionData) : System :=
  s.put c (some ⟨[],.call (.upsert hash data) .returned⟩)

def submitted (s : System) (c : Nat) (hash : String) (data : SubmissionData) : System :=
  ((submitting s c hash data).setWorld (exec s.world (.upsert hash data)).2).put c
    (some ⟨[⟨.upsert hash data,.ok ()⟩],.returned (.ok ())⟩)

/-- A submission that nothing comes between. -/
def submission (treasury : Treasury) (c : Nat) (envelopeXdr : String) : List (Input Task Empty) :=
  [.start c (.track treasury.publicKey envelopeXdr),.proceed c .ok]

theorem step_submission (free : s.threads c = none) (hashed : innerTxHash sdk networkPassphrase envelopeXdr = .ok hash)
    (counts : count sdk networkPassphrase treasury envelopeXdr = .ok progress) :
    (step sdk networkPassphrase treasury s (.start c (.track treasury.publicKey envelopeXdr))).2 =
        submitting s c hash (submissionData envelopeXdr progress) ∧
      (step sdk networkPassphrase treasury (submitting s c hash (submissionData envelopeXdr progress)) (.proceed c .ok)).2 =
        submitted s c hash (submissionData envelopeXdr progress) := by
  constructor
  · simp [step,Interleaving.step,free,track_eq hashed counts,submitting]
  · have standing : (submitting s c hash (submissionData envelopeXdr progress)).threads c =
        some ⟨[],.call (.upsert hash (submissionData envelopeXdr progress)) .returned⟩ := by
      simp [submitting,System.put_threads]
    simp only [step,Interleaving.step,standing,respond]
    rfl

theorem run_submission (free : s.threads c = none) (hashed : innerTxHash sdk networkPassphrase envelopeXdr = .ok hash)
    (counts : count sdk networkPassphrase treasury envelopeXdr = .ok progress) :
    run (step sdk networkPassphrase treasury) s (submission treasury c envelopeXdr) =
      submitted s c hash (submissionData envelopeXdr progress) := by
  obtain ⟨first,second⟩ := step_submission free hashed counts
  rw [submission,run_cons,first,run_cons,second,run_nil]

theorem meets_submission (free : s.threads c = none) (hashed : innerTxHash sdk networkPassphrase envelopeXdr = .ok hash)
    (counts : count sdk networkPassphrase treasury envelopeXdr = .ok progress)
    (covers : ∀ row, s.world.row hash = some row → ∀ key, signed sdk networkPassphrase treasury row.envelopeXdr key = true →
      signed sdk networkPassphrase treasury envelopeXdr key = true) :
    ∀ t ∈ history (step sdk networkPassphrase treasury) s (submission treasury c envelopeXdr),
      Meets hash sdk networkPassphrase treasury t.before t.input := by
  obtain ⟨first,-⟩ := step_submission free hashed counts
  intro t listed
  rw [submission,history_cons,first,history_cons,history_nil] at listed
  simp only [List.mem_cons,List.not_mem_nil,or_false] at listed
  rcases listed with rfl | rfl
  · trivial
  · intro q stands
    have is : (submitting s c hash (submissionData envelopeXdr progress)).pending c =
        some (.upsert hash (submissionData envelopeXdr progress)) := by
      simp [System.pending,submitting,System.put_threads]
    obtain rfl := Option.some.inj (is.symm.trans stands)
    exact ⟨fun _ row found => covers row found,fun no => by cases no⟩

theorem submitted_row (data : SubmissionData) : (submitted s c hash data).world.row hash =
    some (((s.world.row hash).map data.update).getD (data.create hash)) := by
  show (exec s.world (.upsert hash data)).2.row hash = _
  rw [exec_row,rowAfter,if_pos rfl]

theorem submitted_free {d : Nat} (apart : d ≠ c) (data : SubmissionData) (free : s.threads d = none) :
    (submitted s c hash data).threads d = none := by
  simp [submitted,submitting,System.put_threads,apart,free]

end Submissions

section Sample

/-- What the texts of the payment's envelopes with one signature begin with. -/
def oneSignatureXdr : String :=
  "AAAAAgAAAADKk6wXBRhwcdZ7g8f/Dv6BCOjsRTBXXXcmh5Mz29q+fAAAAGQAAAAAAAAAAgAAAAAAAAAAAAAAAQAAAAAAAAABAAAA" ++
    "AG56HN0psLeP0Tr0xVmP7/TvKpcWbjym8uT7/M2AUFvxAAAAAAAAAAAF9eEAAAAAAAAAAAG"

def signedByA : String :=
  oneSignatureXdr ++ "0D29cAAAAQJqHYgrDcwwP4h8NfI1EShxGbSMEX20M2Dz1caCXa2RmvuBZeXkRNEz2TvNf15y/6C5uIpcvFb1syeMabkWkrgQ="
def signedByB : String :=
  oneSignatureXdr ++ "PybOUAAAAQMWTuszsGgLIoUlbd8sIhBfCYd0Lw78NXlzYakhdbvFQTfX9gFbUtHhZlyZG4jAskExqjOguaTICa/B8ASIpCAg="

def trackingSdk : Sdk :=
  knownSdk [(signedByA,.transaction ⟨payment,[signatureA]⟩),(signedByB,.transaction ⟨payment,[signatureB]⟩),
      (signedByAB,.transaction ⟨payment,[signatureA,signatureB]⟩)]
    [(payment,paymentHash)] [] [(signerA,rawKeyA),(signerB,rawKeyB)]
    [(rawKeyA,paymentHash,signatureA.signature),(rawKeyB,paymentHash,signatureB.signature)]

def sampleTreasury : Treasury where
  id := "t1"
  publicKey := "GDFJHLAXAUMHA4OWPOB4P7YO72AQR2HMIUYFOXLXE2DZGM633K7HZDQP"
  label := none
  thresholdLevel := .medium
  signerWatchers := [⟨"u1",signerA⟩,⟨"u2",signerB⟩]
  distinct := by decide
  signers := [⟨signerA,1⟩,⟨signerB,1⟩]
  thresholds := twoThresholds

theorem tracking_apart : (signedByB == signedByA) = false ∧ (signedByAB == signedByA) = false ∧ (signedByAB == signedByB) = false := by
  decide +kernel

theorem tracking_read : trackingSdk.fromXDR signedByA testnet = .ok (.transaction ⟨payment,[signatureA]⟩) ∧
    trackingSdk.fromXDR signedByB testnet = .ok (.transaction ⟨payment,[signatureB]⟩) ∧
    trackingSdk.fromXDR signedByAB testnet = .ok (.transaction ⟨payment,[signatureA,signatureB]⟩) := by
  obtain ⟨apartB,apartAB,apartABB⟩ := tracking_apart
  refine ⟨?_,?_,?_⟩
  · simp only [trackingSdk,knownSdk,List.lookup_cons,beq_self_eq_true]
  · simp only [trackingSdk,knownSdk,List.lookup_cons,apartB,beq_self_eq_true]
  · simp only [trackingSdk,knownSdk,List.lookup_cons,apartAB,apartABB,beq_self_eq_true]

theorem tracking_payment {envelopeXdr : String} {parsed : Envelope} (read : trackingSdk.fromXDR envelopeXdr testnet = .ok parsed) :
    ∃ signatures, parsed = .transaction ⟨payment,signatures⟩ ∧ signatures ⊆ [signatureA,signatureB] := by
  simp only [trackingSdk,knownSdk,List.lookup_cons,List.lookup_nil] at read
  cases isA : envelopeXdr == signedByA with
  | true =>
    simp only [isA] at read
    cases read
    exact ⟨_,rfl,by simp⟩
  | false =>
    simp only [isA] at read
    cases isB : envelopeXdr == signedByB with
    | true =>
      simp only [isB] at read
      cases read
      exact ⟨_,rfl,by simp⟩
    | false =>
      simp only [isB] at read
      cases isAB : envelopeXdr == signedByAB with
      | true =>
        simp only [isAB] at read
        cases read
        exact ⟨_,rfl,by simp⟩
      | false =>
        simp only [isAB] at read
        cases read

theorem tracking_oneSigner : OneSigner trackingSdk testnet sampleTreasury := by
  intro envelopeXdr parsed read
  obtain ⟨signatures,rfl,subset⟩ := tracking_payment read
  have known : ∀ sig ∈ [signatureA,signatureB], sig = signatureA ∨ sig = signatureB := by
    intro sig listed
    rwa [List.mem_pair] at listed
  have both := (payment_ordinary payment_parsed.1 known).oneSigner
  have sameVerify : trackingSdk.verify = paymentSdk.verify := by simp only [trackingSdk,paymentSdk,knownSdk]
  have sameKey : trackingSdk.fromPublicKey = paymentSdk.fromPublicKey := by
    funext key
    simp only [Sdk.fromPublicKey,trackingSdk,paymentSdk,knownSdk]
  have sameHash : trackingSdk.hash = paymentSdk.hash := by simp only [trackingSdk,paymentSdk,knownSdk]
  have sameKeys : keys sampleTreasury.signers = keys (twoSigners.map SignerWeight.forApi) := rfl
  rw [Sdk.OneSigner,sameVerify,sameKey,sameHash,sameKeys]
  exact fun sig listed => both sig (subset listed)

theorem tracking_counts :
    count trackingSdk testnet sampleTreasury signedByA = .ok (progressOf sampleTreasury.signers 2 ⟨[signerA],0⟩) ∧
      count trackingSdk testnet sampleTreasury signedByB = .ok (progressOf sampleTreasury.signers 2 ⟨[signerB],0⟩) ∧
      count trackingSdk testnet sampleTreasury signedByAB = .ok (progressOf sampleTreasury.signers 2 ⟨[signerA,signerB],0⟩) := by
  have counted : ∀ {signatures : List DecoratedSignature} {signedBy : List String} {envelopeXdr : String},
      trackingSdk.fromXDR envelopeXdr testnet = .ok (.transaction ⟨payment,signatures⟩) →
      countSignatures trackingSdk (trackingSdk.hash testnet payment) sampleTreasury.signers signatures = .ok ⟨signedBy,0⟩ →
      count trackingSdk testnet sampleTreasury envelopeXdr = .ok (progressOf sampleTreasury.signers 2 ⟨signedBy,0⟩) := by
    intro signatures signedBy envelopeXdr read loop
    rw [count,countMultisigSignatures,read]
    simp only [Envelope.innerTransaction,loop]
    rfl
  exact ⟨counted tracking_read.1 (by decide +kernel),counted tracking_read.2.1 (by decide +kernel),
    counted tracking_read.2.2 (by decide +kernel)⟩

def paymentTxHash : String := HexText.toHex paymentHash

theorem tracking_hashed : innerTxHash trackingSdk testnet signedByA = .ok paymentTxHash ∧
    innerTxHash trackingSdk testnet signedByB = .ok paymentTxHash ∧ innerTxHash trackingSdk testnet signedByAB = .ok paymentTxHash := by
  have hash : trackingSdk.hash testnet payment = paymentHash := by decide +kernel
  obtain ⟨readA,readB,readAB⟩ := tracking_read
  refine ⟨?_,?_,?_⟩
  · rw [innerTxHash,readA,Except.map,Envelope.innerTransaction,hash,paymentTxHash]
  · rw [innerTxHash,readB,Except.map,Envelope.innerTransaction,hash,paymentTxHash]
  · rw [innerTxHash,readAB,Except.map,Envelope.innerTransaction,hash,paymentTxHash]

/-- The second envelope carries the signature of the first one. -/
def together : List (Input Task Empty) := submission sampleTreasury 1 signedByA ++ submission sampleTreasury 2 signedByAB

/-- Each signer signs the envelope that has no signature yet. -/
def apart : List (Input Task Empty) := submission sampleTreasury 1 signedByA ++ submission sampleTreasury 2 signedByB

def noEnvelopes : System := System.start ⟨[],[],[]⟩

/-- The state after the first submission. -/
def firstSubmitted : System :=
  submitted noEnvelopes 1 paymentTxHash (submissionData signedByA (progressOf sampleTreasury.signers 2 ⟨[signerA],0⟩))

theorem firstSubmitted_row : ∃ row, firstSubmitted.world.row paymentTxHash = some row ∧ row.envelopeXdr = signedByA :=
  ⟨_,submitted_row _,rfl⟩
theorem run_firstSubmitted : run (step trackingSdk testnet sampleTreasury) noEnvelopes (submission sampleTreasury 1 signedByA) =
    firstSubmitted := run_submission rfl tracking_hashed.1 tracking_counts.1
theorem firstSubmitted_free : firstSubmitted.threads 2 = none := submitted_free (by decide) _ rfl

theorem meets_together : ∀ t ∈ history (step trackingSdk testnet sampleTreasury) noEnvelopes together,
    Meets paymentTxHash trackingSdk testnet sampleTreasury t.before t.input := by
  intro t listed
  rw [together,history_append,run_firstSubmitted] at listed
  rcases List.mem_append.mp listed with first | second
  · refine meets_submission rfl tracking_hashed.1 tracking_counts.1 (fun row found => ?_) t first
    cases found
  · refine meets_submission firstSubmitted_free tracking_hashed.2.2 tracking_counts.2.2 (fun row found key => ?_) t second
    obtain ⟨own,isOwn,envelope⟩ := firstSubmitted_row
    obtain rfl := Option.some.inj (isOwn.symm.trans found)
    rw [envelope]
    simp only [signed,tracking_read.1,tracking_read.2.2,Envelope.innerTransaction,Bool.and_eq_true,List.any_cons,List.any_nil,
      Bool.or_false,Bool.or_eq_true]
    exact fun has => ⟨has.1,.inl has.2⟩

theorem signatures_kept_together : Kept trackingSdk testnet sampleTreasury paymentTxHash
    (history (step trackingSdk testnet sampleTreasury) (System.start ⟨[],[],[]⟩) together)
    (run (step trackingSdk testnet sampleTreasury) (System.start ⟨[],[],[]⟩) together) :=
  signatures_kept trackingSdk testnet sampleTreasury tracking_oneSigner paymentTxHash together meets_together

/-- The second submission takes the first signer's signature away. -/
theorem signature_lost : ¬ ∀ (sdk : Sdk) (networkPassphrase : String) (treasury : Treasury), OneSigner sdk networkPassphrase treasury →
    ∀ (hash : String) (inputs : List (Input Task Empty)),
      Kept sdk networkPassphrase treasury hash (history (step sdk networkPassphrase treasury) (System.start ⟨[],[],[]⟩) inputs)
        (run (step sdk networkPassphrase treasury) (System.start ⟨[],[],[]⟩) inputs) := by
  intro always
  have kept := always trackingSdk testnet sampleTreasury tracking_oneSigner paymentTxHash apart
  have ends : run (step trackingSdk testnet sampleTreasury) (System.start ⟨[],[],[]⟩) apart =
      submitted firstSubmitted 2 paymentTxHash (submissionData signedByB (progressOf sampleTreasury.signers 2 ⟨[signerB],0⟩)) := by
    show run _ noEnvelopes _ = _
    rw [apart,run_append,run_firstSubmitted]
    exact run_submission firstSubmitted_free tracking_hashed.2.1 tracking_counts.2.1
  rw [ends] at kept
  obtain ⟨own,isOwn,-⟩ := firstSubmitted_row
  have row := @submitted_row paymentTxHash firstSubmitted 2 (submissionData signedByB (progressOf sampleTreasury.signers 2 ⟨[signerB],0⟩))
  rw [isOwn] at row
  have recorded : signerA ∈ [signerB] := by
    have byA : signed trackingSdk testnet sampleTreasury signedByA signerA = true := by
      rw [signed,tracking_read.1]
      decide +kernel
    have first : everSigned trackingSdk testnet sampleTreasury paymentTxHash firstSubmitted.world signerA = true := by
      show everSigned trackingSdk testnet sampleTreasury paymentTxHash (exec noEnvelopes.world (.upsert paymentTxHash
        (submissionData signedByA (progressOf sampleTreasury.signers 2 ⟨[signerA],0⟩)))).2 signerA = true
      rw [everSigned_upsert,Bool.or_eq_true]
      exact .inr byA
    exact (kept.signedBy _ row signerA).mpr (everSigned_exec _ first)
  exact absurd recorded (by decide +kernel)

end Sample

end StellarAlerts.SignatureTracking
