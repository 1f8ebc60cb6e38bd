import StellarAlerts.ExportPlaces

/-!
The life of an export job in every run of its calls. Where each query that records its
end finds the status that it ends, and each creation finds a free place, statuses move
forward only, a completed job has its file until it expires, and no user has too many
active jobs.
-/
namespace StellarAlerts.ExportJobs
open Histories
open Interleaving hiding step
open RemoteCalls UniqueTables

variable {p : Platform}

abbrev Step := Transition System (Input Task Outside) (Option (Answered Query Value))

/-- The way of a status; none is that of a job that is not there. -/
inductive Moves : Option ExportStatus → Option ExportStatus → Prop where
  | stays (status : Option ExportStatus) : Moves status status
  | creates : Moves none (some .queued)
  | claims : Moves (some .queued) (some .running)
  | completes : Moves (some .running) (some .completed)
  | expires : Moves (some .completed) (some .expired)
  | failsQueued : Moves (some .queued) (some .failed)
  | failsRunning : Moves (some .running) (some .failed)

/-- Completed and not yet expired. -/
def ExportJob.available (clock : Nat) (job : ExportJob) : Bool := job.status = .completed && job.expiresAt.any (clock < ·)

/-- A call of the execution of a job: only a delivery that has claimed the job reads it. -/
def Executes (id : String) (t : Step) : Prop := ∃ found, t.answer = some ⟨.findJob id,found⟩

def claimOf : Answered Query Value → Option String
  | ⟨.claimJob id _,.ok n⟩ => if n = (0 : Nat) then none else some id
  | _ => none

/-- The job that a call has claimed. -/
def System.claimed (s : System) (c : Nat) : Option String :=
  (s.threads c).bind fun t => t.made.reverse.findSome? claimOf

/-- A creation finds fewer active jobs than a user may have, a completion finds its job running, a failure
    finds its job neither completed nor expired, and a delivery deletes no file of an available job. -/
def Query.fits (p : Platform) (w : World) (claimed : Option String) : Query → Bool
  | .createJob userId _ _ => w.active userId < p.EXPORT_MAX_ACTIVE_JOBS_PER_USER
  | .completeJob id _ => w.status id == some .running
  | .failJob id _ _ => w.status id != some .completed && w.status id != some .expired
  | .unlink _ => claimed.all fun id => !(w.job id).any (ExportJob.available w.clock)
  | _ => true

/-- A query that is carried out finds what it takes for granted. -/
def fits (p : Platform) (s : System) : Input Task Outside → Bool
  | .proceed c outcome => !outcome.applied || (s.pending c).all (Query.fits p s.world (s.claimed c))
  | _ => true

theorem after_job (place : Place) (q : Query) (answer : Except String (Value q)) :
    (after place q answer).job = (claimOf ⟨q,answer⟩).or place.job := by
  have kept : place.end.job = place.job := by cases place <;> rfl
  cases q with
  | claimJob id startedAt =>
    cases answer with
    | error e => rfl
    | ok n =>
      by_cases none : n = 0
      · subst none
        rfl
      · simp [after,claimOf,none,Place.job]
  | unlink name => exact kept
  | completeJob id finished => exact kept
  | findJob id => cases place <;> rfl
  | now => cases answer <;> cases place <;> rfl
  | findExpired now => cases answer <;> cases place <;> rfl
  | rename name newName => cases answer <;> cases place <;> rfl
  | _ => rfl

variable {q : Query}

theorem after_claimed {place : Place} {answer : Except String (Value q)} {id : String}
    (now : after place q answer = .claimed id) : claimOf ⟨q,answer⟩ = some id ∨ place = .claimed id := by
  have ended : place.end = .claimed id → place = .claimed id := by
    intro same
    cases place <;> cases same
    rfl
  cases q with
  | claimJob other startedAt =>
    cases answer with
    | error e => exact .inr now
    | ok n =>
      by_cases none : n = 0
      · subst none
        exact .inr now
      · left
        simp only [after,if_neg none] at now
        obtain rfl := Place.claimed.inj now
        exact if_neg none
  | unlink name => exact .inr (ended now)
  | completeJob other finished => exact .inr (ended now)
  | findJob other =>
    right
    cases place <;> first | exact now | cases now
  | now =>
    right
    cases answer <;> cases place <;> first | exact now | cases now
  | findExpired time =>
    right
    cases answer <;> cases place <;> first | exact now | cases now
  | rename name newName =>
    right
    cases answer <;> cases place <;> first | exact now | cases now
  | _ => exact .inr now

theorem claimed_eq (s : System) (c : Nat) : s.claimed c = (s.places after .fresh c).bind Place.job := by
  unfold System.claimed System.places
  cases s.threads c with
  | none => rfl
  | some t =>
    obtain ⟨made,rest⟩ := t
    change made.reverse.findSome? claimOf = (Thread.place after .fresh ⟨made,rest⟩).job
    induction made using List.reverseRecOn with
    | nil => rfl
    | append_singleton made answered ih =>
      rw [Thread.place_append after .fresh made answered.1 answered.2 rest rest,after_job,← ih,List.reverse_append,
        List.reverse_singleton,List.singleton_append,List.findSome?_cons]
      cases claimOf answered <;> rfl

/-- Whoever executes a job has claimed it, and nobody else has. -/
structure Exclusive (s : System) : Prop where
  settled : ∀ c id, s.claimed c = some id → Settled id s.world
  apart : ∀ c d id, s.claimed c = some id → s.claimed d = some id → c = d

abbrev Standing (s : System) : Prop := Placed allowed after (fun _ _ => True) .fresh s

variable {w : World}

theorem claimOf_settled {outcome : Outcome} {id : String} (claims : claimOf ⟨q,(respond (exec p) w q outcome).1⟩ = some id) :
    ¬ Settled id w ∧ Settled id (respond (exec p) w q outcome).2 := by
  generalize answered : (respond (exec p) w q outcome).1 = answer at claims
  unfold claimOf at claims
  split at claims
  next other startedAt n same =>
    obtain ⟨rfl,same⟩ := Sigma.mk.inj same
    obtain rfl := eq_of_heq same
    split at claims
    · cases claims
    next counted =>
      obtain rfl := Option.some.inj claims
      cases outcome with
      | failed message => cases answered
      | lost message => cases answered
      | ok => exact claimed_settled (p := p) answered counted
  next => cases claims

variable {s : System}

theorem claimed_cases (standing : Standing s) (i : Input Task Outside) (d : Nat) (id : String)
    (claims : (step p s i).2.claimed d = some id) :
    s.claimed d = some id ∨ ∃ outcome q, i = .proceed d outcome ∧ claimOf ⟨q,(respond (exec p) s.world q outcome).1⟩ = some id ∧
      (step p s i).2.world = (respond (exec p) s.world q outcome).2 := by
  rw [claimed_eq] at claims ⊢
  rcases @placed_cases _ _ _ _ _ _ _ _ _ _ _ (exec p) (Task.program p) Outside.apply s standing i with same |
    ⟨c,task,rfl,_,_,_,places⟩ | ⟨c,outcome,place,q,rfl,_,atPlace,_,_,world,places⟩ | ⟨c,rfl,_,_,places⟩ | ⟨o,rfl,_,_,places⟩
  · rw [step,same] at claims
    exact .inl claims
  · rw [step,places,Function.update_apply] at claims
    split at claims
    · cases claims
    · exact .inl claims
  · rw [step,places,Function.update_apply] at claims
    split at claims
    next own =>
      subst own
      rw [Option.bind_some,after_job] at claims
      rcases Option.or_eq_some_iff.mp claims with now | ⟨_,before⟩
      · exact .inr ⟨outcome,q,rfl,now,world⟩
      · exact .inl (by rw [atPlace]; exact before)
    next => exact .inl claims
  · rw [step,places,Function.update_apply] at claims
    split at claims
    · cases claims
    · exact .inl claims
  · rw [step,places] at claims
    exact .inl claims

theorem step_settled {id : String} (settled : Settled id s.world) (i : Input Task Outside) :
    Settled id (step p s i).2.world :=
  step_world (I := Settled id) (exec p) (Task.program p) Outside.apply (fun _ q settled => exec_settled settled q)
    (fun o _ settled => by cases o <;> exact settled) settled i

theorem exclusive_step (standing : Standing s) (exclusive : Exclusive s) (i : Input Task Outside) :
    Exclusive (step p s i).2 := by
  constructor
  · intro c id claims
    rcases claimed_cases standing i c id claims with before | ⟨outcome,q,_,now,world⟩
    · exact step_settled (exclusive.settled c id before) i
    · rw [world]
      exact (claimOf_settled now).2
  · intro c d id first second
    rcases claimed_cases standing i c id first with before | ⟨outcome,q,isProceed,now,_⟩
    · rcases claimed_cases standing i d id second with also | ⟨_,_,_,now,_⟩
      · exact exclusive.apart c d id before also
      · exact absurd (exclusive.settled c id before) (claimOf_settled now).1
    · rcases claimed_cases standing i d id second with before | ⟨_,_,isToo,_⟩
      · exact absurd (exclusive.settled d id before) (claimOf_settled now).1
      · rw [isProceed] at isToo
        exact (Input.proceed.inj isToo).1

theorem sound_step (sound : Standing s ∧ Exclusive s) (i : Input Task Outside) :
    Standing (step p s i).2 ∧ Exclusive (step p s i).2 :=
  ⟨placed_step follows_task sound.1 i,exclusive_step sound.1 sound.2 i⟩

theorem sound_start (w : World) : Standing (System.start w) ∧ Exclusive (System.start w) :=
  ⟨placed_start w,⟨by rintro c id ⟨⟩,by rintro c d id ⟨⟩⟩⟩

/-- The job has been claimed, and no call still has to read it. -/
def Read (id : String) (s : System) : Prop := Settled id s.world ∧ ∀ c, s.places after .fresh c ≠ some (.claimed id)

theorem claimed_of_place {c : Nat} {place : Place} (atPlace : s.places after .fresh c = some place) :
    s.claimed c = place.job := by
  rw [claimed_eq,atPlace]
  rfl

variable {i : Input Task Outside}

theorem executes_cases (standing : Standing s) {id : String} (executes : Executes id (transition (step p) s i)) :
    ∃ c, s.places after .fresh c = some (.claimed id) ∧
      (step p s i).2.places after .fresh = Function.update (s.places after .fresh) c (some (.working id)) := by
  obtain ⟨found,answered⟩ := executes
  change (step p s i).1 = some ⟨.findJob id,found⟩ at answered
  have made : ∀ {other}, (step p s i).1 = other → other = some ⟨.findJob id,found⟩ := fun same => same.symm.trans answered
  rcases @placed_cases _ _ _ _ _ _ _ _ _ _ _ (exec p) (Task.program p) Outside.apply s standing i with same |
    ⟨c,task,_,_,none,_,_⟩ | ⟨c,outcome,place,q,_,_,atPlace,may,answerIs,_,places⟩ | ⟨c,_,none,_,_⟩ | ⟨o,_,none,_,_⟩
  · cases made (congrArg Prod.fst same)
  · cases made none
  · obtain ⟨rfl,_⟩ := Sigma.mk.inj (Option.some.inj (made answerIs))
    cases place with
    | claimed other =>
      obtain rfl : id = other := Query.findJob.inj may
      exact ⟨c,atPlace,places⟩
    | fresh => cases may
    | timed now => cases may
    | working other => cases may
    | stored other name => cases may
    | ending other => cases may
    | listed jobs => cases may
  · cases made none
  · cases made none

theorem executes_read (sound : Standing s ∧ Exclusive s) {id : String} (executes : Executes id (transition (step p) s i)) :
    Read id (step p s i).2 := by
  obtain ⟨c,atPlace,places⟩ := executes_cases sound.1 executes
  have claims : s.claimed c = some id := claimed_of_place atPlace
  refine ⟨step_settled (sound.2.settled c id claims) i,fun d => ?_⟩
  rw [places,Function.update_apply]
  split
  · rintro ⟨⟩
  next other =>
    intro also
    exact other (sound.2.apart d c id (claimed_of_place also) claims)

theorem read_step (sound : Standing s ∧ Exclusive s) {id : String} (read : Read id s) (i : Input Task Outside) :
    Read id (step p s i).2 := by
  refine ⟨step_settled read.1 i,fun d => ?_⟩
  rcases @placed_cases _ _ _ _ _ _ _ _ _ _ _ (exec p) (Task.program p) Outside.apply s sound.1 i with same |
    ⟨c,task,_,_,_,_,places⟩ | ⟨c,outcome,place,q,_,_,atPlace,_,_,_,places⟩ | ⟨c,_,_,_,places⟩ | ⟨o,_,_,_,places⟩
  · rw [step,same]
    exact read.2 d
  · rw [step,places,Function.update_apply]
    split
    · rintro ⟨⟩
    · exact read.2 d
  · rw [step,places,Function.update_apply]
    split
    · intro claims
      rcases after_claimed (Option.some.inj claims) with now | rfl
      · exact (claimOf_settled now).1 read.1
      · exact read.2 c atPlace
    · exact read.2 d
  · rw [step,places,Function.update_apply]
    split
    · rintro ⟨⟩
    · exact read.2 d
  · rw [step,places]
    exact read.2 d

theorem run_sound (w : World) (inputs : List (Input Task Outside)) :
    Standing (run (step p) (System.start w) inputs) ∧ Exclusive (run (step p) (System.start w) inputs) :=
  run_inv (I := fun s => Standing s ∧ Exclusive s) (fun _ i sound => sound_step sound i) (sound_start w) inputs

theorem executes_once (w : World) (inputs : List (Input Task Outside)) :
    (history (step p) (System.start w) inputs).Pairwise fun t u => ∀ id, Executes id t → ¬ Executes id u := by
  refine @history_once_of_inv _ _ _ (step p) (fun s => Standing s ∧ Exclusive s) String Executes Read
    (fun s i sound => sound_step sound i) (fun s i id sound executes => executes_read sound executes)
    (fun s i id sound read => read_step sound read i) (System.start w) (sound_start w) inputs ?_
  intro t listed id executes read
  obtain ⟨before,i,rfl⟩ := mem_history listed
  obtain ⟨c,atPlace,_⟩ := executes_cases (run_sound w before).1 executes
  exact read.2 c atPlace

/-- A completed job has a file of its own, which is there as long as the job is available. -/
structure Kept (w : World) : Prop where
  named : ∀ id row, w.job id = some row → row.status = .completed → ∃ name, row.fileName = some name ∧ IsFileOf id name
  there : ∀ id row, w.job id = some row → row.available w.clock = true → ∀ name, row.fileName = some name →
    (w.file name).isSome = true

/-- The entry names a file of its job, and the job is available no more. -/
def Past (w : World) (entry : String × Option String) : Prop :=
  (∀ name, entry.2 = some name → IsFileOf entry.1 name) ∧ ∃ row, w.job entry.1 = some row ∧
    (row.status = .expired ∨ row.status = .completed ∧ row.available w.clock = false)

/-- What calls rely on where they stand. -/
def Backed (w : World) : Place → Prop
  | .timed now => now ≤ w.clock
  | .stored id name => IsFileOf id name ∧ (w.status id = some .running → (w.file name).isSome = true)
  | .listed jobs => ∀ entry ∈ jobs, Past w entry
  | _ => True

theorem available_iff {clock : Nat} {row : ExportJob} :
    row.available clock = true ↔ row.status = .completed ∧ ∃ time, row.expiresAt = some time ∧ clock < time := by
  cases expires : row.expiresAt <;> simp [ExportJob.available,expires]

theorem removed_cases {place : Place} {name : String} (may : allowed place q) (takes : removed q = some name) :
    isTemp name = true ∨ (q = .unlink name ∧ ∃ id, place.job = some id ∧ IsFileOf id name) ∨
      ∃ jobs id, place = .listed jobs ∧ (id,some name) ∈ jobs := by
  cases q with
  | rename other newName =>
    obtain rfl := Option.some.inj takes
    cases place with
    | working id => exact .inl may.1
    | fresh => cases may
    | claimed id => cases may
    | _ => exact may.elim
  | rm other =>
    obtain rfl := Option.some.inj takes
    cases place with
    | working id => exact .inl may
    | listed jobs => exact .inl may
    | fresh => cases may
    | claimed id => cases may
    | _ => exact may.elim
  | unlink other =>
    obtain rfl := Option.some.inj takes
    cases place with
    | working id => exact .inr (.inl ⟨rfl,id,rfl,may⟩)
    | stored id name => exact .inr (.inl ⟨rfl,id,rfl,may⟩)
    | ending id => exact .inr (.inl ⟨rfl,id,rfl,may⟩)
    | listed jobs =>
      obtain ⟨id,listed⟩ := may
      exact .inr (.inr ⟨jobs,id,rfl,listed⟩)
    | fresh => cases may
    | claimed id => cases may
    | timed now => exact may.elim
  | _ => cases takes

theorem completes_cases {place : Place} {id : String} {finished : Finished} (may : allowed place (.completeJob id finished)) :
    place = .stored id finished.fileName := by
  cases place with
  | stored other name =>
    obtain ⟨rfl,rfl⟩ := may
    rfl
  | fresh => cases may
  | claimed id => cases may
  | _ => exact may.elim

theorem listed_past (kept : Kept w) {now : Nat} (passed : now ≤ w.clock) :
    ∀ entry ∈ (((w.exportJob.rows.filter (isExpired now)).take CLEANUP_BATCH).map fun row => (row.id,row.fileName)), Past w entry := by
  intro entry listed
  obtain ⟨row,taken,rfl⟩ := List.mem_map.mp listed
  obtain ⟨member,expired⟩ := List.mem_filter.mp (List.mem_of_mem_take taken)
  obtain ⟨completed,lapsed⟩ : row.status = .completed ∧ row.expiresAt.any (· ≤ now) = true := by simpa [isExpired] using expired
  have found := job_of_mem member
  refine ⟨fun name named => ?_,row,found,.inr ⟨completed,?_⟩⟩
  · obtain ⟨other,same,file⟩ := kept.named row.id row found completed
    obtain rfl := Option.some.inj (named.symm.trans same)
    exact file
  · rw [← Bool.not_eq_true,available_iff]
    rintro ⟨_,time,expires,later⟩
    have before : time ≤ now := by simpa [expires] using lapsed
    omega

section Fitting
variable {w : World} {place : Place} {q : Query} (may : allowed place q) (suits : q.fits p w place.job = true)
  (backed : Backed w place) (kept : Kept w)
include may suits backed

theorem removes_own {id name : String} {row : ExportJob} (found : w.job id = some row) (file : IsFileOf id name)
    (needed : row.status = .running ∨ row.available w.clock = true) (takes : removed q = some name) :
    row.status = .running ∧ place.job = some id := by
  rcases removed_cases may takes with temp | ⟨rfl,other,executes,own⟩ | ⟨jobs,other,rfl,listed⟩
  · rw [fileNameOf_notTemp file] at temp
    cases temp
  · obtain rfl := fileNameOf_job file own
    rcases needed with running | available
    · exact ⟨running,executes⟩
    · simp [Query.fits,executes,found,available] at suits
  · obtain ⟨own,past,foundPast,lapsed⟩ := backed _ listed
    obtain rfl := fileNameOf_job file (own name rfl)
    rw [found] at foundPast
    obtain rfl := Option.some.inj foundPast
    rcases needed with running | available
    · simp [running] at lapsed
    · rw [available] at lapsed
      simp [(available_iff.mp available).1] at lapsed

include kept

theorem kept_exec : Kept (exec p w q).2 := by
  constructor
  · intro id row found completed
    rcases exec_job (p := p) w q id with ⟨userId,type,params,rfl,_,now⟩ | now
    · rw [found] at now
      obtain rfl := Option.some.inj now
      cases completed
    · obtain ⟨old,foundOld,rfl⟩ := Option.map_eq_some_iff.mp (now.symm.trans found)
      have own := job_id foundOld
      rcases changed_cases p w.clock q old with ⟨status,file,_⟩ | ⟨_,_,moved⟩ | ⟨finished,rfl,_,file⟩ | ⟨_,moved⟩ | ⟨_,moved⟩ |
        ⟨_,moved⟩
      · rw [file]
        exact kept.named id old foundOld (status ▸ completed)
      · simp [moved] at completed
      · obtain rfl := completes_cases may
        exact ⟨_,file,own ▸ backed.1⟩
      · simp [moved] at completed
      · simp [moved] at completed
      · simp [moved] at completed
  · intro id row found available name named
    rw [exec_clock] at available
    rcases exec_job (p := p) w q id with ⟨userId,type,params,rfl,_,now⟩ | now
    · rw [found] at now
      obtain rfl := Option.some.inj now
      cases available
    · obtain ⟨old,foundOld,rfl⟩ := Option.map_eq_some_iff.mp (now.symm.trans found)
      have own := job_id foundOld
      obtain ⟨completed,time,expires,later⟩ := available_iff.mp available
      rcases changed_cases p w.clock q old with ⟨status,file,same⟩ | ⟨_,_,moved⟩ | ⟨finished,rfl,_,file⟩ | ⟨_,moved⟩ | ⟨_,moved⟩ |
        ⟨_,moved⟩
      · have before : old.available w.clock = true := available_iff.mpr ⟨status ▸ completed,time,same ▸ expires,later⟩
        rw [file] at named
        obtain ⟨other,named',isFile⟩ := kept.named id old foundOld (status ▸ completed)
        obtain rfl := Option.some.inj (named.symm.trans named')
        refine exec_file (kept.there id old foundOld before name named) fun takes => ?_
        have running := (removes_own may suits backed foundOld isFile (.inr before) takes).1
        simp [(available_iff.mp before).1] at running
      · simp [moved] at completed
      · obtain rfl := completes_cases may
        rw [file] at named
        obtain rfl := Option.some.inj named
        refine exec_file (backed.2 ?_) (by rintro ⟨⟩)
        simpa [Query.fits] using suits
      · simp [moved] at completed
      · simp [moved] at completed
      · simp [moved] at completed

omit kept may backed

theorem past_exec {entry : String × Option String} (past : Past w entry) : Past (exec p w q).2 entry := by
  obtain ⟨own,row,found,lapsed⟩ := past
  refine ⟨own,?_⟩
  rcases exec_job (p := p) w q entry.1 with ⟨_,_,_,_,absent,_⟩ | now
  · rw [found] at absent
    cases absent
  · refine ⟨_,now.trans (congrArg _ found),?_⟩
    have mine := job_id found
    have status : w.status row.id = some row.status := mine ▸ status_of_job found
    rcases changed_cases p w.clock q row with ⟨same,_,expires⟩ | ⟨_,queued,_⟩ | ⟨finished,rfl,_⟩ | ⟨⟨_,_,rfl⟩,_⟩ | ⟨_,moved⟩ |
      ⟨active,_⟩
    · rw [exec_clock,ExportJob.available,same,expires]
      exact lapsed
    · simp [queued] at lapsed
    · have running : row.status = .running := by simpa [Query.fits,status] using suits
      simp [running] at lapsed
    · obtain ⟨notCompleted,notExpired⟩ : row.status ≠ .completed ∧ row.status ≠ .expired := by
        simpa [Query.fits,status] using suits
      rcases lapsed with expired | ⟨completed,_⟩
      · exact absurd expired notExpired
      · exact absurd completed notCompleted
    · exact .inl moved
    · rcases isActive_iff.mp active with queued | running
      · simp [queued] at lapsed
      · simp [running] at lapsed

include may backed

theorem backed_exec {other : Place} (settled : ∀ id, other.job = some id → Settled id w) (also : Backed w other)
    (apart : ∀ id, other.job = some id → place.job = some id → removed q = none) : Backed (exec p w q).2 other := by
  cases other with
  | timed now =>
    rw [Backed,exec_clock]
    exact also
  | listed jobs => exact fun entry listed => past_exec suits (also entry listed)
  | stored id name =>
    refine ⟨also.1,fun running => ?_⟩
    obtain ⟨row,found,notQueued⟩ := settled id rfl
    rcases exec_job (p := p) w q id with ⟨_,_,_,_,absent,_⟩ | now
    · rw [found] at absent
      cases absent
    · rw [found] at now
      rw [status_of_job now] at running
      have running := Option.some.inj running
      have before : row.status = .running := by
        rcases changed_cases p w.clock q row with ⟨same,_⟩ | ⟨_,queued,_⟩ | ⟨_,_,moved,_⟩ | ⟨_,moved⟩ | ⟨_,moved⟩ | ⟨_,moved⟩
        · exact same ▸ running
        · exact absurd queued notQueued
        · simp [moved] at running
        · simp [moved] at running
        · simp [moved] at running
        · simp [moved] at running
      refine exec_file (also.2 (by rw [status_of_job found,before])) fun takes => ?_
      have executes := (removes_own may suits backed found also.1 (.inl before) takes).2
      rw [apart id rfl executes] at takes
      cases takes
  | fresh => trivial
  | claimed id => trivial
  | working id => trivial
  | ending id => trivial

variable (settled : ∀ id, place.job = some id → Settled id w)
include settled

theorem backed_end : Backed (exec p w q).2 place.end := by
  cases place with
  | working id => trivial
  | stored id name => trivial
  | listed jobs => exact backed_exec may suits backed settled backed (by rintro id ⟨⟩)
  | timed now => exact backed_exec may suits backed settled backed (by rintro id ⟨⟩)
  | fresh => trivial
  | claimed id => trivial
  | ending id => trivial

theorem backed_stay (other : ∀ name, q ≠ .unlink name) : Backed (exec p w q).2 place := by
  cases place with
  | stored id name =>
    refine backed_exec may suits backed settled backed fun _ _ _ => ?_
    cases q with
    | unlink name => exact absurd rfl (other name)
    | rename name newName => exact may.elim
    | rm name => exact may.elim
    | _ => rfl
  | listed jobs => exact backed_exec may suits backed settled backed (by rintro id ⟨⟩)
  | timed now => exact backed_exec may suits backed settled backed (by rintro id ⟨⟩)
  | fresh => trivial
  | claimed id => trivial
  | working id => trivial
  | ending id => trivial

include kept

theorem backed_after (outcome : Outcome) (applied : outcome.applied = true) :
    Backed (exec p w q).2 (after place q (respond (exec p) w q outcome).1) := by
  cases q with
  | unlink name => exact backed_end may suits backed settled
  | completeJob id finished => exact backed_end may suits backed settled
  | claimJob id startedAt =>
    have stays : Backed (exec p w (.claimJob id startedAt)).2 place := backed_stay may suits backed settled (by rintro _ ⟨⟩)
    cases outcome with
    | failed message => cases applied
    | lost message => exact stays
    | ok =>
      change Backed _ (if _ then place else .claimed id)
      split
      · exact stays
      · trivial
  | now =>
    have stays : Backed (exec p w .now).2 place := backed_stay may suits backed settled (by rintro _ ⟨⟩)
    cases outcome with
    | failed message => cases applied
    | lost message => exact stays
    | ok =>
      cases place with
      | fresh => exact Nat.le_refl w.clock
      | _ => exact stays
  | findExpired time =>
    have stays : Backed (exec p w (.findExpired time)).2 place := backed_stay may suits backed settled (by rintro _ ⟨⟩)
    cases outcome with
    | failed message => cases applied
    | lost message => exact stays
    | ok =>
      cases place with
      | timed now =>
        obtain rfl : time = now := may
        exact listed_past kept backed
      | _ => exact stays
  | findJob id =>
    have stays : Backed (exec p w (.findJob id)).2 place := backed_stay may suits backed settled (by rintro _ ⟨⟩)
    cases place with
    | claimed other => trivial
    | _ => exact stays
  | rename name newName =>
    have stays : Backed (exec p w (.rename name newName)).2 place := backed_stay may suits backed settled (by rintro _ ⟨⟩)
    generalize answered : (respond (exec p) w (.rename name newName) outcome).1 = answer
    cases answer with
    | error e => exact stays
    | ok done =>
      cases place with
      | working id =>
        cases outcome with
        | failed message => cases applied
        | lost message => cases answered
        | ok => exact ⟨may.2,fun _ => rename_file answered⟩
      | _ => exact stays
  | _ => exact backed_stay may suits backed settled (by rintro _ ⟨⟩)

end Fitting

theorem moves_exec {claimed : Option String} (suits : q.fits p w claimed = true) (id : String) :
    Moves (w.status id) ((exec p w q).2.status id) := by
  rcases exec_job (p := p) w q id with ⟨_,_,_,_,absent,now⟩ | now
  · rw [World.status,absent,status_of_job now]
    exact .creates
  · cases found : w.job id with
    | none =>
      rw [World.status,found,World.status,now,found]
      exact .stays none
    | some row =>
      rw [found] at now
      have mine := job_id found
      have status : w.status row.id = some row.status := mine ▸ status_of_job found
      rw [status_of_job found,status_of_job now]
      rcases changed_cases p w.clock q row with ⟨same,_⟩ | ⟨_,queued,moved⟩ | ⟨finished,rfl,moved,_⟩ | ⟨⟨_,_,rfl⟩,moved⟩ |
        ⟨completed,moved⟩ | ⟨active,moved⟩
      · rw [same]
        exact .stays _
      · rw [queued,moved]
        exact .claims
      · have running : row.status = .running := by simpa [Query.fits,status] using suits
        rw [running,moved]
        exact .completes
      · obtain ⟨notCompleted,notExpired⟩ : row.status ≠ .completed ∧ row.status ≠ .expired := by
          simpa [Query.fits,status] using suits
        rw [moved]
        cases before : row.status with
        | queued => exact .failsQueued
        | running => exact .failsRunning
        | failed => exact .stays _
        | completed => exact absurd before notCompleted
        | expired => exact absurd before notExpired
      · rw [completed,moved]
        exact .expires
      · rcases isActive_iff.mp active with queued | running
        · rw [queued,moved]
          exact .failsQueued
        · rw [running,moved]
          exact .failsRunning

theorem active_exec {claimed : Option String} (suits : q.fits p w claimed = true)
    (few : ∀ userId, w.active userId ≤ p.EXPORT_MAX_ACTIVE_JOBS_PER_USER) (userId : String) :
    (exec p w q).2.active userId ≤ p.EXPORT_MAX_ACTIVE_JOBS_PER_USER := by
  rcases exec_active (p := p) w q userId with less | ⟨⟨type,params,rfl⟩,more⟩
  · exact less.trans (few userId)
  · have free : w.active userId < p.EXPORT_MAX_ACTIVE_JOBS_PER_USER := by simpa [Query.fits] using suits
    omega

/-- What holds in the runs whose queries fit. -/
structure Lawful (p : Platform) (s : System) : Prop where
  kept : Kept s.world
  backed : ∀ c place, s.places after .fresh c = some place → Backed s.world place
  few : ∀ userId, s.world.active userId ≤ p.EXPORT_MAX_ACTIVE_JOBS_PER_USER

theorem outside_cases (o : Outside) (w : World) :
    (∀ id, (o.apply w).job id = w.job id) ∧ (∀ name, (o.apply w).file name = w.file name) ∧
      (∀ userId, (o.apply w).active userId = w.active userId) ∧ w.clock ≤ (o.apply w).clock := by
  cases o with
  | wait ms => exact ⟨fun _ => rfl,fun _ => rfl,fun _ => rfl,Nat.le_add_right ..⟩
  | write user wallet payment => exact ⟨fun _ => rfl,fun _ => rfl,fun _ => rfl,Nat.le_refl _⟩

theorem available_before {earlier later : Nat} (order : earlier ≤ later) {row : ExportJob}
    (available : row.available later = true) : row.available earlier = true := by
  obtain ⟨completed,time,expires,after⟩ := available_iff.mp available
  exact available_iff.mpr ⟨completed,time,expires,by omega⟩

theorem kept_outside (o : Outside) (kept : Kept w) : Kept (o.apply w) := by
  obtain ⟨jobs,files,_,order⟩ := outside_cases o w
  constructor
  · intro id row found
    exact kept.named id row ((jobs id).symm.trans found)
  · intro id row found available name named
    rw [files]
    exact kept.there id row ((jobs id).symm.trans found) (available_before order available) name named

theorem backed_outside (o : Outside) {place : Place} (backed : Backed w place) : Backed (o.apply w) place := by
  obtain ⟨jobs,files,_,order⟩ := outside_cases o w
  cases place with
  | timed now => exact Nat.le_trans backed order
  | stored id name =>
    refine ⟨backed.1,fun running => ?_⟩
    rw [files]
    rw [World.status,jobs] at running
    exact backed.2 running
  | listed entries =>
    intro entry listed
    obtain ⟨own,row,found,lapsed⟩ := backed entry listed
    refine ⟨own,row,(jobs _).trans found,lapsed.imp_right fun past => ⟨past.1,?_⟩⟩
    rw [← Bool.not_eq_true]
    intro available
    rw [available_before order available] at past
    cases past.2
  | fresh => trivial
  | claimed id => trivial
  | working id => trivial
  | ending id => trivial

theorem backed_failed {place : Place} (backed : Backed w place) (q : Query) (message : String) :
    Backed w (after place q (.error message)) := by
  have ended : Backed w place.end := by
    cases place with
    | working id => trivial
    | stored id name => trivial
    | _ => exact backed
  cases q with
  | unlink name => exact ended
  | completeJob id finished => exact ended
  | findJob id =>
    cases place with
    | claimed other => trivial
    | _ => exact backed
  | _ => exact backed

theorem lawful_proceed {next : System} (sound : Standing s ∧ Exclusive s) (lawful : Lawful p s) {c : Nat} {place : Place}
    (atPlace : s.places after .fresh c = some place) (may : allowed place q) (suits : q.fits p s.world place.job = true)
    {outcome : Outcome} (applied : outcome.applied = true) (world : next.world = (exec p s.world q).2)
    (places : next.places after .fresh =
      Function.update (s.places after .fresh) c (some (after place q (respond (exec p) s.world q outcome).1))) :
    Lawful p next := by
  have settled : ∀ d other, s.places after .fresh d = some other → ∀ id, other.job = some id → Settled id s.world :=
    fun d other there id executes => sound.2.settled d id ((claimed_of_place there).trans executes)
  have backed := lawful.backed c place atPlace
  refine ⟨?_,fun d other there => ?_,?_⟩
  · rw [world]
    exact kept_exec may suits backed lawful.kept
  · rw [places,Function.update_apply] at there
    rw [world]
    split at there
    · obtain rfl := Option.some.inj there
      exact backed_after may suits backed lawful.kept (settled c place atPlace) outcome applied
    next apart =>
      refine backed_exec may suits backed (settled d other there) (lawful.backed d other there) fun id executes also => ?_
      have one := sound.2.apart d c id ((claimed_of_place there).trans executes) ((claimed_of_place atPlace).trans also)
      exact absurd one apart
  · rw [world]
    exact active_exec suits lawful.few

theorem lawful_step (sound : Standing s ∧ Exclusive s) (lawful : Lawful p s) (suits : fits p s i = true) :
    Lawful p (step p s i).2 := by
  rcases @placed_cases _ _ _ _ _ _ _ _ _ _ _ (exec p) (Task.program p) Outside.apply s sound.1 i with same |
    ⟨c,task,_,_,_,world,places⟩ | ⟨c,outcome,place,q,rfl,stands,atPlace,may,_,world,places⟩ | ⟨c,_,_,world,places⟩ |
    ⟨o,_,_,world,places⟩
  · rw [step,same]
    exact lawful
  · refine ⟨?_,fun d other there => ?_,?_⟩
    · rw [step,world]
      exact lawful.kept
    · rw [step,places,Function.update_apply] at there
      rw [step,world]
      split at there
      · obtain rfl := Option.some.inj there
        trivial
      · exact lawful.backed d other there
    · rw [step,world]
      exact lawful.few
  · have asked : outcome.applied = true → q.fits p s.world place.job = true := by
      intro applied
      simpa [fits,applied,pending_of_at stands,claimed_of_place atPlace] using suits
    cases outcome with
    | ok => exact lawful_proceed sound lawful atPlace may (asked rfl) rfl world places
    | lost message => exact lawful_proceed sound lawful atPlace may (asked rfl) rfl world places
    | failed message =>
      refine ⟨?_,fun d other there => ?_,?_⟩
      · rw [step,world]
        exact lawful.kept
      · rw [step,places,Function.update_apply] at there
        rw [step,world]
        split at there
        · obtain rfl := Option.some.inj there
          exact backed_failed (lawful.backed c place atPlace) q message
        · exact lawful.backed d other there
      · rw [step,world]
        exact lawful.few
  · refine ⟨?_,fun d other there => ?_,?_⟩
    · rw [step,world]
      exact lawful.kept
    · rw [step,places,Function.update_apply] at there
      rw [step,world]
      split at there
      · cases there
      · exact lawful.backed d other there
    · rw [step,world]
      exact lawful.few
  · refine ⟨?_,fun d other there => ?_,fun userId => ?_⟩
    · rw [step,world]
      exact kept_outside o lawful.kept
    · rw [step,places] at there
      rw [step,world]
      exact backed_outside o (lawful.backed d other there)
    · rw [step,world,(outside_cases o s.world).2.2.1]
      exact lawful.few userId

theorem lawful_start (none : w.exportJob.rows = []) : Lawful p (System.start w) := by
  have jobs : ∀ id, w.job id = .none := by
    intro id
    rw [World.job,none]
    rfl
  refine ⟨⟨?_,?_⟩,?_,fun userId => ?_⟩
  · intro id row found
    cases (jobs id).symm.trans found
  · intro id row found
    cases (jobs id).symm.trans found
  · rintro c place ⟨⟩
  · change w.active userId ≤ _
    rw [World.active,none]
    exact Nat.zero_le _

theorem moves_step (suits : fits p s i = true) (id : String) :
    Moves (s.world.status id) ((step p s i).2.world.status id) := by
  rcases world_cases (exec p) (Task.program p) Outside.apply s i with same | ⟨c,outcome,q,rfl,applied,stands,world⟩ |
    ⟨o,rfl,world⟩
  · rw [step,same]
    exact .stays _
  · rw [step,world]
    have asked : q.fits p s.world (s.claimed c) = true := by simpa [fits,applied,pending_of_at stands] using suits
    exact moves_exec asked id
  · have same : (o.apply s.world).status id = s.world.status id :=
      congrArg (Option.map ExportJob.status) ((outside_cases o s.world).1 id)
    rw [step,world,same]
    exact .stays _

/-- Each job is executed once. In a run whose queries fit, statuses move forward only, every available
    job has its file, and no user has more active jobs than allowed. -/
theorem export_lifecycle (p : Platform) (w : World) (empty : w.exportJob.rows = []) (inputs : List (Input Task Outside)) :
    ((history (step p) (System.start w) inputs).Pairwise fun t u => ∀ id, Executes id t → ¬ Executes id u) ∧
    ((∀ t ∈ history (step p) (System.start w) inputs, fits p t.before t.input = true) →
      ∀ t ∈ history (step p) (System.start w) inputs,
        (∀ id, Moves (t.before.world.status id) (t.after.world.status id)) ∧
        (∀ job ∈ t.after.world.exportJob.rows, job.available t.after.world.clock = true →
          ∃ name, job.fileName = some name ∧ (t.after.world.file name).isSome = true) ∧
        ∀ userId, t.after.world.active userId ≤ p.EXPORT_MAX_ACTIVE_JOBS_PER_USER) := by
  refine ⟨executes_once w inputs,fun meets t listed => ?_⟩
  have holds := history_inv (I := fun s => (Standing s ∧ Exclusive s) ∧ Lawful p s) (M := fun s i => fits p s i = true)
    (fun s i suits both => ⟨sound_step both.1 i,lawful_step both.1 both.2 suits⟩) meets
    ⟨sound_start w,lawful_start empty⟩ t listed
  have suits := meets t listed
  obtain ⟨before,i,rfl⟩ := mem_history listed
  refine ⟨moves_step suits,fun job member available => ?_,holds.2.2.few⟩
  have kept := holds.2.2.kept
  obtain ⟨name,named,_⟩ := kept.named job.id job (job_of_mem member) (available_iff.mp available).1
  exact ⟨name,named,kept.there job.id job (job_of_mem member) available name named⟩

def samplePlatform : Platform where
  EXPORT_MAX_ACTIVE_JOBS_PER_USER := 1
  EXPORT_MAX_ROWS := 10
  EXPORT_BATCH_SIZE := 5
  batchSize_pos := by decide
  EXPORT_TTL_SECONDS := 60
  EXPORT_STALE_JOB_MS := 1000
  cuid n := String.ofList (List.replicate (n + 1) 'j')
  cuid_injective a b same := by
    have lengths := congrArg List.length (String.ofList_inj.mp same)
    simpa using lengths
  furtherDates _ := none
  ninetieths rows rowsTotal := rows * 90 / rowsTotal
  inOrder a b := a ≤ b
  generateLedgerStatementCsv _ := []
  generateTaxExportCsv _ _ := [1,2,3]
  generateLedgerStatementPdf _ := .ok []

def sampleWorld : World := ⟨0,[⟨"u","u@example.org"⟩],[],[],Table.empty,0,[]⟩
def sampleInput : CreateExportInput := ⟨.tax_csv,none,none,none,none⟩
def calls (c n : Nat) : List (Input Task Outside) := List.replicate n (.proceed c .ok)

/-- A job is created and executed up to the query that completes it. -/
def executed : List (Input Task Outside) :=
  .start 0 (.createExport "u" sampleInput) :: calls 0 3 ++ .start 0 (.processExportJob "j") :: calls 0 11

/-- The cleanup times the job out before it is completed. -/
def timedOut : List (Input Task Outside) :=
  executed ++ .outside (.wait 2000) :: .start 1 .cleanupExpiredExports :: calls 1 3

/-- Both creations count before the other one creates. -/
def createdTogether : List (Input Task Outside) :=
  [.start 0 (.createExport "u" sampleInput),.start 1 (.createExport "u" sampleInput)] ++ calls 0 2 ++ calls 1 2 ++
    calls 0 1 ++ calls 1 1

/-- The answer of the completion is lost, and the call deletes the file of the job that it has completed. -/
def lostAnswer : List (Input Task Outside) := executed ++ [.proceed 0 (.lost "timeout"),.proceed 0 .ok]

/-- A job is created, completed, and expired by a cleanup. -/
def expired : List (Input Task Outside) :=
  executed ++ calls 0 1 ++ .outside (.wait 60000) :: .start 1 .cleanupExpiredExports :: calls 1 6

theorem expired_fits : (∀ t ∈ history (step samplePlatform) (System.start sampleWorld) expired,
      fits samplePlatform t.before t.input = true) ∧
    (run (step samplePlatform) (System.start sampleWorld) (executed ++ calls 0 1)).world.status "j" = some .completed ∧
    (run (step samplePlatform) (System.start sampleWorld) expired).world.status "j" = some .expired := by decide +kernel

theorem export_lifecycle_expired :
    ((history (step samplePlatform) (System.start sampleWorld) expired).Pairwise fun t u =>
      ∀ id, Executes id t → ¬ Executes id u) ∧
    (∀ t ∈ history (step samplePlatform) (System.start sampleWorld) expired, ∀ userId, t.after.world.active userId ≤ 1) ∧
    (run (step samplePlatform) (System.start sampleWorld) expired).world.status "j" = some .expired :=
  ⟨(export_lifecycle samplePlatform sampleWorld rfl expired).1,
    fun t listed => ((export_lifecycle samplePlatform sampleWorld rfl expired).2 expired_fits.1 t listed).2.2,
    expired_fits.2.2⟩

/-- What is to be seen of the runs: a timed out job that is completed, two active jobs, and an available job without its file. -/
theorem export_runs :
    ((run (step samplePlatform) (System.start sampleWorld) timedOut).world.status "j" = some .failed ∧
      (step samplePlatform (run (step samplePlatform) (System.start sampleWorld) timedOut) (.proceed 0 .ok)).2.world.status "j" =
        some .completed) ∧
    (run (step samplePlatform) (System.start sampleWorld) createdTogether).world.active "u" = 2 ∧
    (run (step samplePlatform) (System.start sampleWorld) lostAnswer).world.file "j.csv" = none ∧
    ((run (step samplePlatform) (System.start sampleWorld) lostAnswer).world.exportJob.rows.any fun job =>
      job.available (run (step samplePlatform) (System.start sampleWorld) lostAnswer).world.clock &&
        job.fileName == some "j.csv") = true := by decide +kernel

theorem export_lifecycle_breaks :
    (¬ ∀ t ∈ history (step samplePlatform) (System.start sampleWorld) (timedOut ++ [.proceed 0 .ok]),
      ∀ id, Moves (t.before.world.status id) (t.after.world.status id)) ∧
    (¬ ∀ job ∈ (run (step samplePlatform) (System.start sampleWorld) lostAnswer).world.exportJob.rows,
      job.available (run (step samplePlatform) (System.start sampleWorld) lostAnswer).world.clock = true →
        ∃ name, job.fileName = some name ∧
          ((run (step samplePlatform) (System.start sampleWorld) lostAnswer).world.file name).isSome = true) ∧
    ¬ ∀ userId, (run (step samplePlatform) (System.start sampleWorld) createdTogether).world.active userId ≤
      samplePlatform.EXPORT_MAX_ACTIVE_JOBS_PER_USER := by
  obtain ⟨⟨failed,completed⟩,two,gone,available⟩ := export_runs
  refine ⟨fun moves => ?_,fun stored => ?_,fun few => ?_⟩
  · have moved := moves (transition (step samplePlatform) (run (step samplePlatform) (System.start sampleWorld) timedOut)
      (.proceed 0 .ok)) (by rw [history_append]; exact List.mem_append_right _ (List.mem_singleton_self _)) "j"
    simp only [transition,failed,completed] at moved
    cases moved
  · obtain ⟨job,listed,holds⟩ := List.any_eq_true.mp available
    obtain ⟨now,named⟩ := Bool.and_eq_true_iff.mp holds
    obtain ⟨name,same,there⟩ := stored job listed now
    rw [beq_iff_eq.mp named] at same
    obtain rfl := Option.some.inj same
    rw [gone] at there
    cases there
  · have one := few "u"
    rw [two] at one
    exact absurd one (by decide)

end StellarAlerts.ExportJobs
