import StellarAlerts.ExportJobs

/-!
Export jobs call by call. Every program follows from where its answers have brought it
(`follows_task`), so that a delivery works for the one job that it has claimed and a
cleanup deletes files that it has listed.
-/
namespace StellarAlerts.ExportJobs
open Histories
open Interleaving hiding step
open RemoteCalls UniqueTables

variable {p : Platform}

/-- What a query makes of each row. -/
def changed (p : Platform) (clock : Nat) : Query → ExportJob → ExportJob
  | .claimJob id startedAt => ExportJob.write (isQueued id) clock (ExportJob.claim startedAt)
  | .setRowsTotal id rowsTotal =>
    ExportJob.write (fun row => row.id == id) clock fun row => { row with rowsTotal := some rowsTotal }
  | .setProgress id rowsProcessed progress =>
    ExportJob.write (fun row => row.id == id) clock fun row => { row with rowsProcessed, progress }
  | .completeJob id finished => ExportJob.write (fun row => row.id == id) clock (ExportJob.complete finished)
  | .failJob id error completedAt => ExportJob.write (fun row => row.id == id) clock (ExportJob.fail error completedAt)
  | .expireJob id => ExportJob.write (isCompleted id) clock ExportJob.expire
  | .failStale now => ExportJob.write (isStale p now) clock (ExportJob.timeOut now)
  | _ => id

theorem write_userId (which : ExportJob → Bool) (clock : Nat) (columns : ExportJob → ExportJob) (row : ExportJob)
    (kept : ∀ row, (columns row).userId = row.userId) : (row.write which clock columns).userId = row.userId := by
  unfold ExportJob.write
  split
  · exact kept row
  · rfl

section Rows
variable (p) (clock : Nat) (q : Query) (row : ExportJob)

@[simp] theorem changed_id : (changed p clock q row).id = row.id := by
  cases q <;> first | exact write_id .. | rfl
theorem changed_userId : (changed p clock q row).userId = row.userId := by
  cases q <;> first | exact write_userId _ _ _ _ fun _ => rfl | rfl

/-- A query that leaves the row's status leaves its file; any other moves it on. -/
theorem changed_cases :
    ((changed p clock q row).status = row.status ∧ (changed p clock q row).fileName = row.fileName ∧
      (changed p clock q row).expiresAt = row.expiresAt) ∨
    ((∃ startedAt, q = .claimJob row.id startedAt) ∧ row.status = .queued ∧ (changed p clock q row).status = .running) ∨
    (∃ finished, q = .completeJob row.id finished ∧ (changed p clock q row).status = .completed ∧
      (changed p clock q row).fileName = some finished.fileName) ∨
    ((∃ error completedAt, q = .failJob row.id error completedAt) ∧ (changed p clock q row).status = .failed) ∨
    (row.status = .completed ∧ (changed p clock q row).status = .expired) ∨
    (row.isActive = true ∧ (changed p clock q row).status = .failed) := by
  cases q with
  | claimJob id startedAt =>
    by_cases mine : isQueued id row = true
    · obtain ⟨rfl,queued⟩ : row.id = id ∧ row.status = .queued := by simpa [isQueued] using mine
      exact .inr (.inl ⟨⟨startedAt,rfl⟩,queued,by simp [changed,ExportJob.write,mine,ExportJob.claim]⟩)
    · exact .inl (by simp [changed,ExportJob.write,mine])
  | setRowsTotal id rowsTotal =>
    left
    simp only [changed,ExportJob.write]
    split <;> exact ⟨rfl,rfl,rfl⟩
  | setProgress id rowsProcessed progress =>
    left
    simp only [changed,ExportJob.write]
    split <;> exact ⟨rfl,rfl,rfl⟩
  | completeJob id finished =>
    by_cases mine : row.id = id
    · subst mine
      exact .inr (.inr (.inl ⟨finished,rfl,by simp [changed,ExportJob.write,ExportJob.complete],
        by simp [changed,ExportJob.write,ExportJob.complete]⟩))
    · exact .inl (by simp [changed,ExportJob.write,mine])
  | failJob id error completedAt =>
    by_cases mine : row.id = id
    · subst mine
      exact .inr (.inr (.inr (.inl ⟨⟨error,completedAt,rfl⟩,by simp [changed,ExportJob.write,ExportJob.fail]⟩)))
    · exact .inl (by simp [changed,ExportJob.write,mine])
  | expireJob id =>
    by_cases mine : isCompleted id row = true
    · obtain ⟨_,completed⟩ : row.id = id ∧ row.status = .completed := by simpa [isCompleted] using mine
      exact .inr (.inr (.inr (.inr (.inl ⟨completed,by simp [changed,ExportJob.write,mine,ExportJob.expire]⟩))))
    · exact .inl (by simp [changed,ExportJob.write,mine])
  | failStale now =>
    by_cases mine : isStale p now row = true
    · obtain ⟨active,_⟩ : row.isActive = true ∧ _ := by simpa [isStale] using mine
      exact .inr (.inr (.inr (.inr (.inr ⟨active,by simp [changed,ExportJob.write,mine,ExportJob.timeOut]⟩))))
    · exact .inl (by simp [changed,ExportJob.write,mine])
  | _ => exact .inl ⟨rfl,rfl,rfl⟩

end Rows

theorem isActive_iff {row : ExportJob} : row.isActive = true ↔ row.status = .queued ∨ row.status = .running := by
  simp [ExportJob.isActive]

theorem isActive_of_changed {clock : Nat} {q : Query} {row : ExportJob} (active : (changed p clock q row).isActive = true) :
    row.isActive = true := by
  rw [isActive_iff] at active
  rcases changed_cases p clock q row with ⟨same,_⟩ | ⟨_,queued,_⟩ | ⟨_,_,now,_⟩ | ⟨_,now⟩ | ⟨_,now⟩ | ⟨active,_⟩
  · rw [same] at active
    exact isActive_iff.mpr active
  · exact isActive_iff.mpr (.inl queued)
  · simp [now] at active
  · simp [now] at active
  · simp [now] at active
  · exact active

variable {w : World}

theorem job_id {id : String} {row : ExportJob} (found : w.job id = some row) : row.id = id := by
  simpa using List.find?_some found

theorem job_of_mem {row : ExportJob} (listed : row ∈ w.exportJob.rows) : w.job row.id = some row := by
  refine find_of_mem (fun a b first second => ?_) listed (beq_self_eq_true row.id)
  rw [ExportJob.clash,beq_iff_eq.mp first,beq_iff_eq.mp second]
  exact beq_self_eq_true row.id

theorem updateJob_rows (w : World) (id : String) (columns : ExportJob → ExportJob) :
    (w.updateJob id columns).2.exportJob.rows =
      w.exportJob.rows.map (ExportJob.write (fun row => row.id == id) w.clock columns) := by
  unfold World.updateJob
  split
  next absent =>
    refine ((List.map_congr_left fun row listed => ?_).trans (List.map_id _)).symm
    have other : (row.id == id) = false := by simpa using List.find?_eq_none.mp absent row listed
    simp [ExportJob.write,other]
  next => rfl

theorem exec_rows (w : World) (q : Query) :
    (∃ userId type params, q = .createJob userId type params ∧ w.job (p.cuid w.created) = none ∧
      (exec p w q).2.exportJob.rows = w.exportJob.rows ++ [newJob (p.cuid w.created) userId type params w.clock]) ∨
    (exec p w q).2.exportJob.rows = w.exportJob.rows.map (changed p w.clock q) := by
  have same : w.exportJob.rows = w.exportJob.rows.map id := (List.map_id _).symm
  cases q with
  | createJob userId type params =>
    cases inserted : w.exportJob.insert (newJob (p.cuid w.created) userId type params w.clock) with
    | none =>
      right
      simp only [exec,inserted]
      exact same
    | some table =>
      refine .inl ⟨userId,type,params,rfl,?_,by simp [exec,inserted,insert_rows inserted]⟩
      have free := insert_free inserted
      refine List.find?_eq_none.mpr fun row listed => ?_
      simp only [Table.holds,List.any_eq_false] at free
      exact free row listed
  | claimJob id startedAt => exact .inr rfl
  | setRowsTotal id rowsTotal => exact .inr (updateJob_rows w id _)
  | setProgress id rowsProcessed progress => exact .inr (updateJob_rows w id _)
  | completeJob id finished => exact .inr (updateJob_rows w id _)
  | failJob id error completedAt => exact .inr (updateJob_rows w id _)
  | expireJob id => exact .inr rfl
  | failStale now => exact .inr rfl
  | rename name newName =>
    right
    simp only [exec]
    split <;> exact same
  | stat name =>
    right
    simp only [exec]
    split <;> exact same
  | unlink name =>
    right
    simp only [exec]
    split <;> exact same
  | _ => exact .inr same

theorem exec_job (w : World) (q : Query) (id : String) :
    (∃ userId type params, q = .createJob userId type params ∧ w.job id = none ∧
      (exec p w q).2.job id = some (newJob id userId type params w.clock)) ∨
    (exec p w q).2.job id = (w.job id).map (changed p w.clock q) := by
  rcases exec_rows (p := p) w q with ⟨userId,type,params,rfl,absent,rows⟩ | rows
  · by_cases own : p.cuid w.created = id
    · subst own
      refine .inl ⟨userId,type,params,rfl,absent,?_⟩
      rw [World.job,rows,List.find?_append,← World.job,absent]
      simp [newJob]
    · right
      rw [World.job,rows,List.find?_append,← World.job]
      cases found : w.job id with
      | none => simp [newJob,own]
      | some row => rfl
  · right
    rw [World.job,rows]
    exact find_map (fun row => by rw [changed_id]) w.exportJob.rows

theorem exec_active (w : World) (q : Query) (userId : String) :
    (exec p w q).2.active userId ≤ w.active userId ∨
      ((∃ type params, q = .createJob userId type params) ∧ (exec p w q).2.active userId ≤ w.active userId + 1) := by
  rcases exec_rows (p := p) w q with ⟨other,type,params,rfl,_,rows⟩ | rows
  · by_cases own : other = userId
    · subst own
      refine .inr ⟨⟨type,params,rfl⟩,?_⟩
      rw [World.active,rows,List.countP_append]
      exact Nat.add_le_add_left List.countP_le_length _
    · left
      rw [World.active,rows,List.countP_append]
      simp [newJob,own,World.active]
  · left
    rw [World.active,rows,List.countP_map]
    refine List.countP_mono_left fun row _ counted => ?_
    simp only [Function.comp_apply,changed_userId,Bool.and_eq_true] at counted ⊢
    exact ⟨counted.1,isActive_of_changed counted.2⟩

/-- The job is there and has been claimed, or timed out before. -/
def Settled (id : String) (w : World) : Prop := ∃ row, w.job id = some row ∧ row.status ≠ .queued

theorem status_of_job {id : String} {row : ExportJob} (found : w.job id = some row) : w.status id = some row.status := by
  rw [World.status,found]
  rfl

theorem exec_settled {id : String} (settled : Settled id w) (q : Query) : Settled id (exec p w q).2 := by
  obtain ⟨row,found,notQueued⟩ := settled
  rcases exec_job (p := p) w q id with ⟨_,_,_,_,absent,_⟩ | now
  · rw [found] at absent
    cases absent
  · refine ⟨_,now.trans (congrArg _ found),?_⟩
    rcases changed_cases p w.clock q row with ⟨same,_⟩ | ⟨_,_,moved⟩ | ⟨_,_,moved,_⟩ | ⟨_,moved⟩ | ⟨_,moved⟩ | ⟨_,moved⟩
    · rw [same]
      exact notQueued
    all_goals simp [moved]

theorem claimed_settled {id : String} {startedAt n : Nat} (answered : (exec p w (.claimJob id startedAt)).1 = .ok n)
    (counted : n ≠ 0) : ¬ Settled id w ∧ Settled id (exec p w (.claimJob id startedAt)).2 := by
  obtain ⟨row,listed,mine⟩ : ∃ row ∈ w.exportJob.rows, isQueued id row = true := by
    rw [← List.countP_pos_iff]
    injection answered with same
    change List.countP (isQueued id) w.exportJob.rows = n at same
    omega
  obtain ⟨own,queued⟩ : row.id = id ∧ row.status = .queued := by simpa [isQueued] using mine
  have found : w.job id = some row := own ▸ job_of_mem listed
  constructor
  · rintro ⟨other,also,notQueued⟩
    rw [found] at also
    cases also
    exact notQueued queued
  · rcases exec_job (p := p) w (.claimJob id startedAt) id with ⟨_,_,_,other,_⟩ | now
    · cases other
    · refine ⟨_,now.trans (congrArg _ found),?_⟩
      simp [changed,ExportJob.write,mine,ExportJob.claim]

/-- The file is one of the job's. -/
def IsFileOf (id name : String) : Prop := ∃ extension, name = fileNameOf id extension

/-- The file that a query takes away. -/
def removed : Query → Option String
  | .rename name _ => some name
  | .rm name => some name
  | .unlink name => some name
  | _ => none

theorem toList_fileNameOf (id : String) (extension : Extension) :
    ∃ last, last.length = 4 ∧ last ≠ TMP_SUFFIX.toList ∧ (fileNameOf id extension).toList = id.toList ++ last := by
  cases extension with
  | csv => exact ⟨['.','c','s','v'],rfl,by decide,by simp [fileNameOf,Extension.text]⟩
  | pdf => exact ⟨['.','p','d','f'],rfl,by decide,by simp [fileNameOf,Extension.text]⟩

variable {other : String}

theorem fileNameOf_job {id name : String} (first : IsFileOf id name) (second : IsFileOf other name) : id = other := by
  obtain ⟨a,rfl⟩ := first
  obtain ⟨b,same⟩ := second
  obtain ⟨last,length,_,isFirst⟩ := toList_fileNameOf id a
  obtain ⟨last',length',_,isSecond⟩ := toList_fileNameOf other b
  have lists : id.toList ++ last = other.toList ++ last' := by rw [← isFirst,← isSecond,same]
  exact String.toList_inj.mp (List.append_inj' lists (by rw [length,length'])).1

theorem fileNameOf_notTemp {id name : String} (file : IsFileOf id name) : isTemp name = false := by
  obtain ⟨extension,rfl⟩ := file
  obtain ⟨last,length,differs,isName⟩ := toList_fileNameOf id extension
  rw [← Bool.not_eq_true,isTemp,List.isSuffixOf_iff_suffix,isName]
  rintro ⟨front,same⟩
  exact differs (List.append_inj' same (by rw [length]; rfl)).2.symm

theorem isTemp_tmp (name : String) : isTemp (name ++ TMP_SUFFIX) = true := by
  rw [isTemp,List.isSuffixOf_iff_suffix]
  exact ⟨name.toList,(String.toList_append ..).symm⟩

theorem file_removeFile {name : String} (apart : name ≠ other) : (w.removeFile other).file name = w.file name := by
  simp only [World.file,World.removeFile,List.find?_filter]
  congr 2
  funext entry
  by_cases own : entry.1 = name
  · simp [own,apart]
  · simp [own]

theorem file_putFile (w : World) (name other : String) (file : StoredFile) :
    (w.putFile other file).file name = if name = other then some file else w.file name := by
  by_cases own : name = other
  · simp [World.file,World.putFile,own]
  · have rest := file_removeFile (w := w) own
    simp only [World.file,World.putFile,List.find?_cons,if_neg own] at rest ⊢
    rw [show (other == name) = false by simpa using fun same => own same.symm]
    exact rest

theorem putFile_there {name : String} {file : StoredFile} (there : (w.file name).isSome = true) :
    ((w.putFile other file).file name).isSome = true := by
  rw [file_putFile]
  split
  · rfl
  · exact there

theorem exec_file {q : Query} {name : String} (there : (w.file name).isSome = true) (kept : removed q ≠ some name) :
    ((exec p w q).2.file name).isSome = true := by
  have apart : ∀ other, removed q = some other → name ≠ other := by
    rintro other takes rfl
    exact kept takes
  cases q with
  | createJob userId type params =>
    simp only [exec]
    split <;> exact there
  | setRowsTotal id rowsTotal =>
    simp only [exec,World.updateJob]
    split <;> exact there
  | setProgress id rowsProcessed progress =>
    simp only [exec,World.updateJob]
    split <;> exact there
  | completeJob id finished =>
    simp only [exec,World.updateJob]
    split <;> exact there
  | failJob id error completedAt =>
    simp only [exec,World.updateJob]
    split <;> exact there
  | writeFile other data => exact putFile_there there
  | rename other newName =>
    simp only [exec]
    split
    · exact there
    · exact putFile_there (by rwa [file_removeFile (apart other rfl)])
  | rm other =>
    change ((w.removeFile other).file name).isSome = true
    rwa [file_removeFile (apart other rfl)]
  | unlink other =>
    simp only [exec]
    split
    · exact there
    · change ((w.removeFile other).file name).isSome = true
      rwa [file_removeFile (apart other rfl)]
  | stat other =>
    simp only [exec]
    split <;> exact there
  | _ => exact there

theorem rename_file {name newName : String} (done : (exec p w (.rename name newName)).1 = .ok ()) :
    ((exec p w (.rename name newName)).2.file newName).isSome = true := by
  cases found : w.file name with
  | none =>
    simp only [exec,found] at done
    cases done
  | some file =>
    simp only [exec,found]
    rw [file_putFile,if_pos rfl]
    rfl

@[simp] theorem exec_clock (w : World) (q : Query) : (exec p w q).2.clock = w.clock := by
  cases q <;> simp only [exec,World.updateJob] <;> first | rfl | (split <;> rfl)

/-- How far a call is: it has read the time, claimed a job, read it, put its file in place, or come to its
    end; or it has listed the jobs that expire. -/
inductive Place where
  | fresh
  | timed (now : Nat)
  | claimed (id : String)
  | working (id : String)
  | stored (id name : String)
  | ending (id : String)
  | listed (jobs : List (String × Option String))

/-- The job that the call executes. -/
def Place.job : Place → Option String
  | .claimed id => some id
  | .working id => some id
  | .stored id _ => some id
  | .ending id => some id
  | _ => none

def Place.end : Place → Place
  | .working id => .ending id
  | .stored id _ => .ending id
  | place => place

def after (place : Place) (q : Query) (answer : Except String (Value q)) : Place :=
  match q, answer with
  | .claimJob id _, .ok n => if n = 0 then place else .claimed id
  | .now, .ok now => match place with
    | .fresh => .timed now
    | place => place
  | .findExpired _, .ok jobs => match place with
    | .timed _ => .listed jobs
    | place => place
  | .findJob _, _ => match place with
    | .claimed id => .working id
    | place => place
  | .rename _ name, .ok _ => match place with
    | .working id => .stored id name
    | place => place
  | .unlink _, _ => place.end
  | .completeJob _ _, _ => place.end
  | _, _ => place

def allowed : Place → Query → Prop
  | .fresh, q => q = .now
  | .timed now, q => match q with
    | .findExpired time => time = now
    | .findWallet _ _ | .countActive _ | .createJob _ _ _ | .claimJob _ _ => True
    | _ => False
  | .claimed id, q => q = .findJob id
  | .working id, q => match q with
    | .now | .findWallet _ _ | .countPayments _ | .setRowsTotal _ _ | .findPayments _ _ _ | .setProgress _ _ _ | .mkdir
    | .writeFile _ _ => True
    | .rename name newName => isTemp name = true ∧ IsFileOf id newName
    | .rm name => isTemp name = true
    | .unlink name => IsFileOf id name
    | .failJob other _ _ => other = id
    | _ => False
  | .stored id name, q => match q with
    | .now | .stat _ => True
    | .completeJob other finished => other = id ∧ finished.fileName = name
    | .unlink other => IsFileOf id other
    | .failJob other _ _ => other = id
    | _ => False
  | .ending id, q => match q with
    | .now => True
    | .unlink name => IsFileOf id name
    | .failJob other _ _ => other = id
    | _ => False
  | .listed jobs, q => match q with
    | .unlink name => ∃ id, (id,some name) ∈ jobs
    | .rm name => isTemp name = true
    | .expireJob _ | .failStale _ | .stat _ | .readdir => True
    | _ => False

abbrev Ends {α : Type} (place : Place) (x : Code α) : Prop := Follows allowed after (fun _ _ => True) place x.run
abbrev Back {α : Type} (place : Place) (x : Code α) : Prop := Returns allowed after place x

section Constructs
variable {α : Type} {place : Place}

theorem back_ask {q : Query} (may : allowed place q) (stays : ∀ answer, after place q answer = place) : Back place (ask q) :=
  returns_query ⟨may,stays⟩

end Constructs

section Working
variable (jobId : String)

theorem back_fetchPayments (filter : PaymentWhere) (rowsTotal rounds : Nat) (rows : List LedgerStatementPayment)
    (cursor : Option String) : Back (.working jobId) (fetchPayments p jobId filter rowsTotal rounds rows cursor) := by
  induction rounds generalizing rows cursor with
  | zero => exact returns_pure _
  | succ rounds ih =>
    simp only [fetchPayments]
    split
    · exact returns_pure _
    · refine returns_bind (back_ask trivial fun _ => rfl) fun batch => ?_
      have goesOn : Back (.working jobId) (if List.length batch < p.EXPORT_BATCH_SIZE then
          pure (rows ++ List.map Payment.row batch)
        else fetchPayments p jobId filter rowsTotal rounds (rows ++ List.map Payment.row batch)
          (Option.map Payment.id (List.getLast? batch))) := by
        split
        · exact returns_pure _
        · exact ih _ _
      split
      · exact returns_bind (back_ask trivial fun _ => rfl) fun _ => goesOn
      · exact goesOn

theorem back_render (type : ExportType) (params : ExportJobParams) (payments : List LedgerStatementPayment)
    (userEmail userId : String) : Back (.working jobId) (render p type params payments userEmail userId) := by
  cases type with
  | ledger_csv => exact returns_pure _
  | tax_csv => exact returns_pure _
  | ledger_pdf =>
    have wallet : Back (.working jobId) (walletMeta userId (textOf params.walletId)) := by
      unfold walletMeta
      split
      · exact returns_pure _
      · exact back_ask trivial fun _ => rfl
    exact returns_bind wallet fun _ => returns_bind (returns_given _) fun _ => returns_pure _

theorem follows_prepare : Follows allowed after (fun _ place => place = .working jobId) (.claimed jobId) (prepare p jobId).run := by
  refine follows_bindCode.mpr (follows_query.mpr ⟨rfl,fun answer => ?_⟩)
  cases answer with
  | error e => rfl
  | ok found =>
    cases found with
    | none => rfl
    | some pair =>
      change Back (.working jobId) _
      refine returns_bind (back_ask trivial fun _ => rfl) fun rowsTotal => ?_
      split
      · exact returns_pure _
      · exact returns_bind (back_ask trivial fun _ => rfl) fun _ => returns_bind (back_fetchPayments ..) fun _ =>
          returns_bind (back_render ..) fun _ => returns_pure _

/-- The call works for the job, has its file in place, or ends. -/
def Open (place : Place) : Prop := place = .working jobId ∨ (∃ name, place = .stored jobId name) ∨ place = .ending jobId

variable {jobId}

theorem follows_resolveExportFilePath {post : Except String Unit → Place → Prop} {place : Place} (fileName : String)
    (ends : ∀ ended, post ended place) : Follows allowed after post place (resolveExportFilePath fileName).run := by
  unfold resolveExportFilePath
  split
  · exact ends _
  · exact ends _

theorem back_resolveExportFilePath (place : Place) (fileName : String) : Back place (resolveExportFilePath fileName) :=
  follows_resolveExportFilePath fileName fun _ => rfl

theorem follows_move {fileName : String} (file : IsFileOf jobId fileName) (data : List UInt8) :
    Follows allowed after (fun ended place => place = match ended with
        | .ok _ => .stored jobId fileName
        | .error _ => .working jobId) (.working jobId)
      (tryCatch (do
        ask (.writeFile (fileName ++ TMP_SUFFIX) data)
        ask (.rename (fileName ++ TMP_SUFFIX) fileName)) fun error => do
          ask (.rm (fileName ++ TMP_SUFFIX))
          throw error : Code Unit).run := by
  have temp : isTemp (fileName ++ TMP_SUFFIX) = true := isTemp_tmp fileName
  have cleans : ∀ error : String, Follows allowed after (fun ended place => place = match ended with
        | .ok _ => .stored jobId fileName
        | .error _ => .working jobId) (.working jobId)
      (do
        ask (.rm (fileName ++ TMP_SUFFIX))
        throw error : Code Unit).run := by
    intro error
    exact follows_asked temp (fun _ => rfl) fun _ => rfl
  refine follows_tryCatch.mpr (follows_bindCode.mpr (follows_query.mpr ⟨trivial,?_⟩))
  rintro (e | _)
  · exact cleans e
  · refine follows_query.mpr ⟨⟨temp,file⟩,?_⟩
    rintro (e | _)
    · exact cleans e
    · rfl

theorem follows_writeExportFile {fileName : String} (file : IsFileOf jobId fileName) (data : List UInt8) :
    Follows allowed after (fun ended place => (∀ size, ended = .ok size → place = .stored jobId fileName) ∧ Open jobId place)
      (.working jobId) (writeExportFile fileName data).run := by
  have works : ∀ e : String, (∀ size : Nat, Except.error e = .ok size → Place.working jobId = .stored jobId fileName) ∧
      Open jobId (.working jobId) := fun e => ⟨by rintro _ ⟨⟩,.inl rfl⟩
  refine follows_bindCode.mpr (follows_mono ?_ (back_resolveExportFilePath (.working jobId) fileName))
  rintro (e | _) place rfl
  · exact works e
  · refine follows_asked trivial (fun e => works e) fun _ => ?_
    refine follows_bindCode.mpr (follows_mono ?_ (follows_move file data))
    rintro (e | _) place rfl
    · exact works e
    · exact follows_asked trivial (fun _ => ⟨by rintro _ ⟨⟩,.inr (.inl ⟨fileName,rfl⟩)⟩) fun _ => ⟨fun _ _ => rfl,.inr (.inl ⟨fileName,rfl⟩)⟩

theorem follows_store (rendered : Rendered) (rows : Nat) :
    Follows allowed after (fun _ place => Open jobId place) (.working jobId) (store p jobId rendered rows).run := by
  have file : IsFileOf jobId (fileNameOf jobId rendered.extension) := ⟨rendered.extension,rfl⟩
  refine follows_bindCode.mpr (follows_mono ?_ (follows_writeExportFile file rendered.data))
  rintro (e | fileSize) place ⟨stored,stays⟩
  · exact stays
  · obtain rfl := stored fileSize rfl
    exact follows_asked trivial (fun _ => stays) fun completedAt => follows_query.mpr ⟨⟨rfl,rfl⟩,fun _ => .inr (.inr rfl)⟩

theorem follows_deleteExportFile {name : String} (file : IsFileOf jobId name) {place : Place} (stays : Open jobId place) :
    Follows allowed after (fun _ place => Open jobId place) place (deleteExportFile name).run := by
  refine follows_bindCode.mpr (follows_mono ?_ (back_resolveExportFilePath place name))
  rintro (e | _) there rfl
  · exact stays
  · have unlinks : allowed there (.unlink name) ∧ ∀ answer, Open jobId (after there (.unlink name) answer) := by
      rcases stays with rfl | ⟨other,rfl⟩ | rfl
      · exact ⟨file,fun _ => .inr (.inr rfl)⟩
      · exact ⟨file,fun _ => .inr (.inr rfl)⟩
      · exact ⟨file,fun _ => .inr (.inr rfl)⟩
    refine follows_tryCatch.mpr (follows_bindCode.mpr (follows_query.mpr ⟨unlinks.1,?_⟩))
    rintro (e | _)
    · have ends := unlinks.2 (.error e)
      change Follows allowed after (fun _ place => Open jobId place) _ (if e = ENOENT then return false else throw e : Code Bool).run
      split
      · exact ends
      · exact ends
    · exact unlinks.2 (.ok ())

theorem ends_recordFailure (fileName : Option String) (file : ∀ name, fileName = some name → IsFileOf jobId name)
    (userMessage : String) {place : Place} (stays : Open jobId place) :
    Ends place (recordFailure jobId fileName userMessage) := by
  have records : ∀ there, Open jobId there → Ends there (do
      let _ ← attempt do
        let completedAt ← ask .now
        ask (.failJob jobId (truncateError userMessage) completedAt)
      return .failed : Code Processed) := by
    intro there stays
    have reads : allowed there .now ∧ (∀ answer, after there .now answer = there) ∧
        ∀ error completedAt, allowed there (.failJob jobId error completedAt) := by
      rcases stays with rfl | ⟨other,rfl⟩ | rfl
      · exact ⟨trivial,by rintro (e | now) <;> rfl,fun _ _ => rfl⟩
      · exact ⟨trivial,by rintro (e | now) <;> rfl,fun _ _ => rfl⟩
      · exact ⟨trivial,by rintro (e | now) <;> rfl,fun _ _ => rfl⟩
    refine follows_bindCode.mpr (follows_attempt.mpr (follows_bindCode.mpr (follows_query.mpr ⟨reads.1,?_⟩)))
    rintro (e | completedAt)
    · trivial
    · rw [reads.2.1]
      exact follows_query.mpr ⟨reads.2.2 _ _,fun _ => trivial⟩
  cases fileName with
  | none => exact records place stays
  | some name =>
    exact follows_bindCode.mpr (follows_attempt.mpr
      (follows_mono (fun _ there stays => records there stays) (follows_deleteExportFile (file name rfl) stays)))

theorem ends_executeJob : Ends (.claimed jobId) (executeJob p jobId) := by
  refine follows_bindCode.mpr (follows_attempt.mpr (follows_mono ?_ (follows_prepare jobId)))
  rintro (e | prepared) place rfl
  · exact ends_recordFailure none (by rintro _ ⟨⟩) _ (.inl rfl)
  · cases prepared with
    | vanished => trivial
    | refused error => exact ends_recordFailure none (by rintro _ ⟨⟩) _ (.inl rfl)
    | rendered rendered rows =>
      refine follows_bindCode.mpr (follows_attempt.mpr (follows_mono ?_ (follows_store rendered rows)))
      rintro (e | _) place stays
      · exact ends_recordFailure _ (by rintro _ ⟨⟩; exact ⟨rendered.extension,rfl⟩) _ stays
      · trivial

end Working

theorem ends_processExportJob (jobId : String) : Ends .fresh (processExportJob p jobId) := by
  refine follows_asked rfl (fun _ => trivial) fun startedAt => ?_
  refine follows_asked trivial (fun _ => trivial) fun n => ?_
  by_cases none : n = 0
  · subst none
    trivial
  · have claims : after (after .fresh .now (.ok startedAt)) (.claimJob jobId startedAt) (.ok n) = .claimed jobId := if_neg none
    simp only [if_neg none]
    rw [claims]
    exact ends_executeJob

theorem ends_createExport (userId : String) (input : CreateExportInput) : Ends .fresh (createExport p userId input) := by
  refine follows_asked rfl (fun _ => trivial) fun now => ?_
  change Ends (.timed now) _
  have owns : ∀ walletId, Back (.timed now) (ownsWallet userId walletId) := by
    intro walletId
    cases walletId with
    | none => exact returns_pure _
    | some id => exact returns_bind (back_ask trivial fun _ => rfl) fun _ => returns_pure _
  have rest : Back (.timed now) (do
      let params ← given (resolveExportParams p input now)
      let owned ← ownsWallet userId (textOf params.walletId)
      if !owned then return .error ⟨"Wallet not found",404,"WALLET_NOT_FOUND"⟩
      else
        let active ← ask (.countActive userId)
        if p.EXPORT_MAX_ACTIVE_JOBS_PER_USER ≤ active then
          return .error
            ⟨s!"You already have {active} export(s) in progress. Wait for one to finish before starting another.",429,
              "TOO_MANY_ACTIVE_EXPORTS"⟩
        else
          let job ← ask (.createJob userId input.type params)
          return .ok job : Code (Except ExportError ExportJob)) := by
    refine returns_bind (returns_given _) fun params => returns_bind (owns _) fun owned => ?_
    split
    · exact returns_pure _
    · refine returns_bind (back_ask trivial fun _ => rfl) fun active => ?_
      split
      · exact returns_pure _
      · exact returns_bind (back_ask trivial fun _ => rfl) fun _ => returns_pure _
  exact follows_mono (fun _ _ _ => trivial) rest

theorem back_expireJobs {jobs : List (String × Option String)} (todo : List (String × Option String))
    (among : ∀ entry ∈ todo, entry ∈ jobs) (expired filesDeleted : Nat) :
    Back (.listed jobs) (expireJobs todo expired filesDeleted) := by
  induction todo generalizing expired filesDeleted with
  | nil => exact returns_pure _
  | cons entry rest ih =>
    obtain ⟨id,fileName⟩ := entry
    have goesOn := ih fun entry listed => among entry (List.mem_cons_of_mem _ listed)
    have deletes : Back (.listed jobs) (deleteJobFile fileName) := by
      cases fileName with
      | none => exact returns_pure _
      | some name =>
        refine returns_bind (back_resolveExportFilePath _ name) fun _ => returns_tryCatch ?_ fun error => ?_
        · exact returns_bind (back_ask ⟨id,among _ (List.mem_cons_self ..)⟩ fun _ => rfl) fun _ => returns_pure _
        · split
          · exact returns_pure _
          · exact returns_throw _
    refine returns_bind (returns_attempt deletes) fun deleted => ?_
    cases deleted with
    | error e => exact goesOn expired filesDeleted
    | ok gone => exact returns_bind (returns_attempt (back_ask trivial fun _ => rfl)) fun _ => goesOn _ _

theorem back_sweepFiles (jobs : List (String × Option String)) (now : Nat) (names : List String) (removed : Nat) :
    Back (.listed jobs) (sweepFiles p now names removed) := by
  induction names generalizing removed with
  | nil => exact returns_pure _
  | cons entry rest ih =>
    simp only [sweepFiles]
    split
    · exact ih removed
    · next temp =>
      have temp : isTemp entry = true := by simpa using temp
      have sweeps : Back (.listed jobs) (sweepFile p now entry) := by
        refine returns_bind (back_ask trivial fun _ => rfl) fun stat => ?_
        split
        · exact returns_bind (back_ask temp fun _ => rfl) fun _ => returns_pure _
        · exact returns_pure _
      exact returns_bind (returns_attempt sweeps) fun _ => ih _

theorem back_sweepStaleTempFiles (jobs : List (String × Option String)) (now : Nat) :
    Back (.listed jobs) (sweepStaleTempFiles p now) := by
  refine returns_bind (returns_tryCatch (returns_map (back_ask trivial fun _ => rfl)) fun error => ?_) fun entries => ?_
  · split
    · exact returns_pure _
    · exact returns_throw _
  · cases entries with
    | none => exact returns_pure _
    | some names => exact back_sweepFiles jobs now names 0

theorem ends_cleanupExpiredExports : Ends .fresh (cleanupExpiredExports p) := by
  refine follows_asked rfl (fun _ => trivial) fun now => ?_
  refine follows_asked rfl (fun _ => trivial) fun jobs => ?_
  change Ends (.listed jobs) _
  refine follows_mono (fun _ _ _ => trivial) (returns_bind (back_expireJobs jobs (fun _ listed => listed) 0 0) fun counts =>
    returns_bind (back_ask trivial fun _ => rfl) fun stale =>
      returns_bind (back_sweepStaleTempFiles jobs now) fun _ => returns_pure _)

theorem follows_task (task : Task) : Follows allowed after (fun _ _ => True) .fresh (task.program p) := by
  cases task with
  | createExport userId input => exact follows_map.mpr (ends_createExport userId input)
  | processExportJob jobId => exact follows_map.mpr (ends_processExportJob jobId)
  | cleanupExpiredExports => exact follows_map.mpr ends_cleanupExpiredExports

end StellarAlerts.ExportJobs
