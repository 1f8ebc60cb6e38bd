import StellarAlerts.FailoverReplay

/-!
What recoveries leave in the buffer. Where nothing comes in between the last read of a
replay and its end, or between what a request reads and its push, the buffer of a
healthy controller is empty and within its bound (`nothing_stranded`).
-/
namespace StellarAlerts.DbFailover
open Histories
open Interleaving hiding step
open RemoteCalls

variable {Payload : Type} {p : Platform Payload}

def Place.drains : Place → Bool
  | .replaying => true
  | .holding _ => true
  | _ => false

theorem drains_outside {place : Place} (drains : place.drains = true) : place ≠ .outside := by
  rintro rfl
  cases drains

/-- A check that drains the buffer finds the controller degraded. -/
def Guarded (p : Platform Payload) (s : System Payload) : Prop :=
  ∀ c place, s.places (after p) .outside c = some place → place.drains = true →
    s.world.controller.state = .DEGRADED_READ_ONLY

variable {w : World} {q : Query Payload}

theorem exec_degraded (other : q ≠ .recovered) (degraded : w.controller.state = .DEGRADED_READ_ONLY) :
    (exec p w q).2.controller.state = .DEGRADED_READ_ONLY := by
  cases q with
  | recovered => exact absurd rfl other
  | probeFailed message =>
    simp only [exec,World.probeFailed]
    split
    · rfl
    · exact degraded
  | lagMeasured lagMs =>
    simp only [exec,World.lagMeasured]
    split
    · exact degraded
    · split <;> exact degraded
  | _ => exact degraded

theorem respond_degraded (other : q ≠ .recovered) (degraded : w.controller.state = .DEGRADED_READ_ONLY) (outcome : Outcome) :
    (respond (exec p) w q outcome).2.controller.state = .DEGRADED_READ_ONLY := by
  cases outcome with
  | failed message => exact degraded
  | ok => exact exec_degraded other degraded
  | lost message => exact exec_degraded other degraded

theorem probe_degraded {outcome : Outcome} (goes : (respond (exec p) w .probeSucceeded outcome).1 = .ok true) :
    (respond (exec p) w .probeSucceeded outcome).2.controller.state = .DEGRADED_READ_ONLY := by
  cases outcome with
  | failed message => cases goes
  | lost message => cases goes
  | ok =>
    have replay : (w.probeSucceeded p.config).1 = true := Except.ok.inj goes
    simp only [World.probeSucceeded,Bool.and_eq_true,decide_eq_true_eq] at replay
    exact replay.1.1

variable {may : String → Prop}

theorem after_drains {place : Place} {answer : Except String (Value Payload q)} (allows : allowed p may place q)
    (drains : (after p place q answer).drains = true) :
    (place.drains = true ∧ q ≠ .recovered) ∨
      (⟨q,answer⟩ : Answered (Query Payload) (Value Payload)) = ⟨.probeSucceeded,.ok true⟩ := by
  rcases after_inside (drains_outside drains) with ⟨was,_⟩ | begins
  · cases place with
    | outside => exact absurd rfl was
    | replaying =>
      refine .inl ⟨rfl,?_⟩
      rintro rfl
      cases drains
    | holding raw =>
      refine .inl ⟨rfl,?_⟩
      rintro rfl
      exact allows
    | closing =>
      cases q with
      | resetSuccesses => cases drains
      | length => cases drains
      | controller => cases drains
      | endReplay => cases drains
      | _ => exact allows.elim
  · exact .inr begins

variable {s : System Payload}

theorem guarded_step (standing : Standing p may s) (exclusive : Exclusive p s) (guarded : Guarded p s)
    (e : Event (Task Payload) Outside) : Guarded p (step p s e).2 := by
  rcases step_moves standing e with same | ⟨c,_,_,world,places⟩ | ⟨c,_,outcome,place,q,_,_,_,atPlace,allows,_,world,places⟩ |
    ⟨o,_,_,world,places⟩
  · rw [same]
    exact guarded
  · intro d there now drains
    rw [places,Function.update_apply] at now
    rw [world]
    split at now
    · obtain rfl := Option.some.inj now
      cases drains
    · exact guarded d there now drains
  · intro d there now drains
    rw [places,Function.update_apply] at now
    rw [world]
    split at now
    · obtain rfl := Option.some.inj now
      rcases after_drains allows drains with ⟨was,other⟩ | begins
      · exact respond_degraded other (guarded c place atPlace was) outcome
      · obtain ⟨rfl,goes⟩ := Sigma.mk.inj begins
        exact probe_degraded (eq_of_heq goes)
    next apart =>
      refine respond_degraded ?_ (guarded d there now drains) outcome
      -- The one that recovers replays, and it is the only one.
      rintro rfl
      have inside : place ≠ .outside := by
        rintro rfl
        exact allows
      exact apart (exclusive.apart d c there place now atPlace (drains_outside drains) inside)
  · intro d there now drains
    rw [places] at now
    rw [world]
    have degraded := guarded d there now drains
    cases o <;> exact degraded

/-- In normal operation nothing is buffered, and the buffer is within its bound. -/
def Settled (p : Platform Payload) (w : World) : Prop :=
  (w.controller.state = .HEALTHY → w.buffer = []) ∧ w.buffer.length ≤ p.config.maxBufferSize

/-- A push finds the controller degraded, as its request did, and room in the buffer; so does an entry that is
    put back; and a recovery finds the buffer as empty as its replay did. -/
def findsRoom (p : Platform Payload) (s : System Payload) : Event (Task Payload) Outside → Bool
  | .proceed c outcome => match s.pending c with
    | some (.push _) =>
      !outcome.applied || (s.world.controller.state = .DEGRADED_READ_ONLY && s.world.buffer.length < p.config.maxBufferSize)
    | some (.unshift _) => !outcome.applied || s.world.buffer.length < p.config.maxBufferSize
    | some .recovered => s.world.buffer.isEmpty
    | _ => true
  | _ => true

/-- The query adds nothing to the buffer and does not end the degraded mode. -/
def Query.isCalm : Query Payload → Bool
  | .push _ => false
  | .unshift _ => false
  | .recovered => false
  | _ => true

theorem exec_settled (calm : q.isCalm = true) (settled : Settled p w) : Settled p (exec p w q).2 := by
  have empty : w.controller.state = .HEALTHY → w.buffer = [] := settled.1
  have bounded := settled.2
  cases q with
  | push raw => cases calm
  | unshift raw => cases calm
  | recovered => cases calm
  | shift =>
    refine ⟨fun healthy => ?_,?_⟩
    · show w.buffer.tail = []
      rw [empty healthy]
      rfl
    · show w.buffer.tail.length ≤ _
      rw [List.length_tail]
      omega
  | probeFailed message =>
    simp only [exec,World.probeFailed]
    split
    · exact ⟨by rintro ⟨⟩,bounded⟩
    · exact settled
  | lagMeasured lagMs =>
    simp only [exec,World.lagMeasured]
    split
    · exact settled
    · split <;> exact settled
  | _ => exact settled

theorem respond_settled (calm : q.isCalm = true) (settled : Settled p w) (outcome : Outcome) :
    Settled p (respond (exec p) w q outcome).2 := by
  cases outcome with
  | failed message => exact settled
  | ok => exact exec_settled calm settled
  | lost message => exact exec_settled calm settled

theorem settled_push (raw : String) (outcome : Outcome) (settled : Settled p w) :
    Settled p (respond (exec p) w (.push raw) outcome).2 ↔
      (!outcome.applied || (w.controller.state = .DEGRADED_READ_ONLY && w.buffer.length < p.config.maxBufferSize)) = true := by
  have pushed : Settled p (exec p w (.push raw)).2 ↔
      w.controller.state = .DEGRADED_READ_ONLY ∧ w.buffer.length < p.config.maxBufferSize := by
    simp only [Settled,exec,List.append_eq_nil_iff,List.cons_ne_self,and_false,List.length_append,List.length_singleton]
    cases state : w.controller.state with
    | HEALTHY => simp
    | DEGRADED_READ_ONLY => simp [Nat.succ_le_iff]
  cases outcome with
  | failed message => simp [respond,Outcome.applied,settled]
  | ok => simpa [respond,Outcome.applied] using pushed
  | lost message => simpa [respond,Outcome.applied] using pushed

theorem settled_unshift (raw : String) (outcome : Outcome) (settled : Settled p w)
    (degraded : w.controller.state = .DEGRADED_READ_ONLY) :
    Settled p (respond (exec p) w (.unshift raw) outcome).2 ↔
      (!outcome.applied || w.buffer.length < p.config.maxBufferSize) = true := by
  have put : Settled p (exec p w (.unshift raw)).2 ↔ w.buffer.length < p.config.maxBufferSize := by
    simp [Settled,exec,degraded,Nat.succ_le_iff]
  cases outcome with
  | failed message => simp [respond,Outcome.applied,settled]
  | ok => simpa [respond,Outcome.applied] using put
  | lost message => simpa [respond,Outcome.applied] using put

theorem settled_recovered (settled : Settled p w) : Settled p w.recovered ↔ w.buffer.isEmpty = true := by
  have bounded := settled.2
  simp only [Settled,World.recovered,World.setReadTarget,List.isEmpty_iff]
  exact ⟨fun later => later.1 trivial,fun empty => ⟨fun _ => empty,bounded⟩⟩

theorem settled_step (standing : Standing p may s) (guarded : Guarded p s) (settled : Settled p s.world)
    (e : Event (Task Payload) Outside) : Settled p (step p s e).2.world ↔ findsRoom p s e = true := by
  cases e with
  | start c task =>
    rw [step,process_start_world]
    exact iff_of_true settled rfl
  | outside o =>
    refine iff_of_true ?_ rfl
    cases o <;> exact settled
  | proceed c asked =>
    rw [step,process_proceed_world]
    cases stands : s.pending c with
    | none => exact iff_of_true settled (by simp [findsRoom,stands])
    | some q =>
      simp only [Option.elim_some]
      cases q with
      | push raw => simpa [findsRoom,stands,Query.isMemory,Query.isRemote] using settled_push raw asked settled
      | unshift raw =>
        have degraded : s.world.controller.state = .DEGRADED_READ_ONLY := by
          obtain ⟨place,atPlace,allows⟩ := placed_pending standing stands
          cases place with
          | outside => exact allows.elim
          | replaying => exact allows.elim
          | closing => exact allows.elim
          | holding other => exact guarded c _ atPlace rfl
        simpa [findsRoom,stands,Query.isMemory,Query.isRemote] using settled_unshift raw asked settled degraded
      | recovered => simpa [findsRoom,stands,Query.isMemory,Query.isRemote,respond,exec] using settled_recovered settled
      | _ => exact iff_of_true (respond_settled rfl settled _) (by simp [findsRoom,stands])

theorem pushes_all (p : Platform Payload) (task : Task Payload) : task.Pushes p fun _ => True := by
  cases task with
  | check => trivial
  | lagCheck => trivial
  | bufferMutation type payload => exact fun _ _ _ _ => trivial
  | request type payload => exact fun _ _ _ _ => trivial

/-- Replays stand where they may, one at a time, in degraded mode. -/
structure Sound (p : Platform Payload) (s : System Payload) : Prop where
  standing : Standing p (fun _ => True) s
  exclusive : Exclusive p s
  guarded : Guarded p s

theorem sound_start (p : Platform Payload) (w : World) : Sound p (System.start w) := by
  refine ⟨placed_start w,⟨?_,?_⟩,?_⟩
  · rintro c place ⟨⟩
  · rintro c d place place' ⟨⟩
  · rintro c place ⟨⟩

theorem sound_step (e : Event (Task Payload) Outside) (sound : Sound p s) : Sound p (step p s e).2 :=
  ⟨process_placed sound.standing fun _ task _ => follows_task (pushes_all p task),exclusive_step sound.standing sound.exclusive e,
    guarded_step sound.standing sound.exclusive sound.guarded e⟩

/-- In normal operation nothing is buffered, and the buffer stays within its bound, in just those runs where every push and every entry
    that is put back finds room, every push a controller that is still degraded, and every recovery a buffer that is still empty. -/
theorem nothing_stranded (p : Platform Payload) (w : World) (settled : Settled p w) (events : List (Event (Task Payload) Outside)) :
    (∀ t ∈ history (step p) (System.start w) events, Settled p t.after.world) ↔
      ∀ t ∈ history (step p) (System.start w) events, findsRoom p t.before t.input = true :=
  history_keeps_iff (fun _ e => sound_step e)
    (fun _ e sound before => settled_step sound.standing sound.guarded before e) (sound_start p w) settled events

/-- The probe of a check fails. -/
def partitioned : List (Event (Task String) Outside) :=
  .start 1 .check :: calls 1 1 ++ .proceed 1 (.failed "timeout") :: calls 1 3

/-- A mutation is buffered, replayed, and the controller recovers. -/
def recoveredAfter : List (Event (Task String) Outside) :=
  partitioned ++ .start 0 (.request "alert.create" "G") :: calls 0 4 ++ .start 1 .check :: calls 1 12

theorem recoveredAfter_finds :
    (∀ t ∈ history (step samplePlatform) (System.start sampleWorld) recoveredAfter, findsRoom samplePlatform t.before t.input = true) ∧
      (run (step samplePlatform) (System.start sampleWorld) recoveredAfter).world.controller.state = .HEALTHY := by decide +kernel

theorem nothing_stranded_after :
    (∀ t ∈ history (step samplePlatform) (System.start sampleWorld) recoveredAfter, Settled samplePlatform t.after.world) ∧
      (run (step samplePlatform) (System.start sampleWorld) recoveredAfter).world.controller.state = .HEALTHY :=
  ⟨(nothing_stranded samplePlatform sampleWorld ⟨fun _ => rfl,Nat.zero_le _⟩ recoveredAfter).mpr recoveredAfter_finds.1,
    recoveredAfter_finds.2⟩

/-- A check reads the empty buffer before a request pushes, and is healthy after it. -/
def strandedAfter : List (Event (Task String) Outside) :=
  partitioned ++ .start 0 (.request "alert.create" "G") :: calls 0 3 ++ .start 1 .check :: calls 1 4 ++ calls 0 1 ++ calls 1 6

/-- Three requests read the length before they push. -/
def overfilled : List (Event (Task String) Outside) :=
  partitioned ++ [.start 0 (.request "alert.create" "G"),.start 2 (.request "alert.create" "G"),
    .start 3 (.request "alert.create" "G")] ++ calls 0 3 ++ calls 2 3 ++ calls 3 3 ++ calls 0 1 ++ calls 2 1 ++ calls 3 1

/-- Mutations are buffered by requests only. -/
def asksFirst : Event (Task Payload) Outside → Bool
  | .start _ (.bufferMutation _ _) => false
  | _ => true

theorem stranding_runs :
    ((run (step samplePlatform) (System.start sampleWorld) strandedAfter).world.controller.state = .HEALTHY ∧
      (run (step samplePlatform) (System.start sampleWorld) strandedAfter).pending 0 = none ∧
      (run (step samplePlatform) (System.start sampleWorld) strandedAfter).pending 1 = none ∧
      (run (step samplePlatform) (System.start sampleWorld) strandedAfter).world.buffer.length = 1) ∧
    (run (step samplePlatform) (System.start sampleWorld) overfilled).world.buffer.length = 3 := by decide +kernel

theorem mutations_stranded :
    (¬ ∀ events, (∀ e ∈ events, asksFirst e = true) →
      (run (step samplePlatform) (System.start sampleWorld) events).world.controller.state = .HEALTHY →
      (∀ c, (run (step samplePlatform) (System.start sampleWorld) events).pending c = none) →
        (run (step samplePlatform) (System.start sampleWorld) events).world.buffer = []) ∧
    ¬ ∀ events, (∀ e ∈ events, asksFirst e = true) →
      (run (step samplePlatform) (System.start sampleWorld) events).world.buffer.length ≤ samplePlatform.config.maxBufferSize := by
  obtain ⟨⟨healthy,first,second,one⟩,three⟩ := stranding_runs
  refine ⟨fun empty => ?_,fun bounded => ?_⟩
  · have ended := @process_run_ended _ _ _ _ _ _ (exec samplePlatform) (Task.program samplePlatform) Outside.apply Query.isMemory
      sampleWorld strandedAfter [0,1] (by decide) (by
        rintro c listed
        rcases List.mem_pair.mp listed with rfl | rfl
        · exact first
        · exact second)
    have none_left := empty strandedAfter (by decide) healthy ended
    rw [none_left] at one
    cases one
  · have few := bounded overfilled (by decide)
    rw [three] at few
    exact absurd few (by decide)

end StellarAlerts.DbFailover
