import StellarAlerts.FailoverRecovery

/-!
Where reads go. The target agrees with both where the monitor never leaves the replica
while the primary is not reached, and no recovery goes back to a replica that lags
(`routed_iff`).
-/
namespace StellarAlerts.DbFailover
open Histories
open Interleaving hiding step
open RemoteCalls

variable {Payload : Type} {p : Platform Payload}

/-- Reads of a primary that is not reached go to the replica, and those of a replica that lags to the primary. -/
def Routed (w : World) : Prop :=
  (w.controller.state = .DEGRADED_READ_ONLY → w.activeReadTarget = .REPLICA) ∧
    (w.controller.state = .HEALTHY → w.monitor.state = .LAGGING → w.activeReadTarget = .PRIMARY)

/-- A lag that is too large or not known finds the primary reached, and a recovery finds a replica that is in sync. -/
def agrees (p : Platform Payload) (s : System Payload) : Event (Task Payload) Outside → Bool
  | .proceed c _ => match s.pending c with
    | some (.lagMeasured lagMs) => lagMs ≤ p.lag.lagThresholdMs || s.world.controller.state = .HEALTHY
    | some (.lagUnknown _) => s.world.controller.state = .HEALTHY
    | some .recovered => s.world.monitor.state = .IN_SYNC
    | _ => true
  | _ => true

theorem healthy_iff (state : FailoverState) : state ≠ .DEGRADED_READ_ONLY ↔ state = .HEALTHY := by cases state <;> decide
theorem inSync_iff (state : ReplicaHealthState) : state ≠ .LAGGING ↔ state = .IN_SYNC := by cases state <;> decide
theorem routed_degraded (w : World) : Routed w.enterDegradedMode :=
  ⟨fun _ => rfl,by rintro ⟨⟩⟩
theorem routed_failBack (w : World) : Routed w.failBackToReplica :=
  ⟨fun _ => rfl,fun _ => by rintro ⟨⟩⟩

theorem routed_failOver (w : World) : Routed w.failOverToPrimary ↔ w.controller.state = .HEALTHY := by
  rw [← healthy_iff]
  constructor
  · intro routed degraded
    cases routed.1 degraded
  · intro reached
    exact ⟨fun degraded => absurd degraded reached,fun _ _ => rfl⟩

theorem routed_recovered (w : World) : Routed w.recovered ↔ w.monitor.state = .IN_SYNC := by
  rw [← inSync_iff]
  constructor
  · intro routed lagging
    cases routed.2 rfl lagging
  · intro inSync
    exact ⟨by rintro ⟨⟩,fun _ lagging => absurd lagging inSync⟩

theorem routed_probeFailed {w : World} (routed : Routed w) (config : FailoverConfig) (message : String) :
    Routed (w.probeFailed config message) := by
  simp only [World.probeFailed]
  split
  · exact routed_degraded _
  · exact routed

theorem routed_lagMeasured {w : World} (routed : Routed w) (config : ReplicaLagMonitorConfig) (lagMs : Nat) :
    Routed (w.lagMeasured config lagMs) ↔ lagMs ≤ config.lagThresholdMs ∨ w.controller.state = .HEALTHY := by
  simp only [World.lagMeasured]
  split
  next large =>
    rw [routed_failOver]
    have lagging : ¬ lagMs ≤ config.lagThresholdMs := by omega
    simp [lagging]
  next small =>
    have within : lagMs ≤ config.lagThresholdMs := by omega
    refine iff_of_true ?_ (.inl within)
    split
    · exact routed_failBack _
    · exact routed

theorem routed_lagUnknown (w : World) (message : String) : Routed (w.lagUnknown message) ↔ w.controller.state = .HEALTHY :=
  routed_failOver _

theorem routed_step {s : System Payload} (routed : Routed s.world) (e : Event (Task Payload) Outside) :
    Routed (step p s e).2.world ↔ agrees p s e = true := by
  cases e with
  | start c task =>
    rw [step,process_start_world]
    exact iff_of_true routed rfl
  | outside o =>
    refine iff_of_true ?_ rfl
    cases o <;> exact routed
  | proceed c asked =>
    rw [step,process_proceed_world]
    cases stands : s.pending c with
    | none => exact iff_of_true routed (by simp [agrees,stands])
    | some q =>
      simp only [Option.elim_some]
      cases q with
      | lagMeasured lagMs => simpa [agrees,stands,Query.isMemory,Query.isRemote,respond,exec] using routed_lagMeasured routed p.lag lagMs
      | lagUnknown message => simpa [agrees,stands,Query.isMemory,Query.isRemote,respond,exec] using routed_lagUnknown s.world message
      | recovered => simpa [agrees,stands,Query.isMemory,Query.isRemote,respond,exec] using routed_recovered s.world
      | probeFailed message => exact iff_of_true (routed_probeFailed routed p.config message) (by simp [agrees,stands])
      | _ => exact iff_of_true (by cases asked <;> exact routed) (by simp [agrees,stands])

/-- The target agrees with both monitors throughout just those runs where every lag that is too large or not known finds
    the primary reached, and every recovery of the primary finds the replica in sync. -/
theorem routed_iff (p : Platform Payload) (w : World) (routed : Routed w) (events : List (Event (Task Payload) Outside)) :
    (∀ t ∈ history (step p) (System.start w) events, Routed t.after.world) ↔
      ∀ t ∈ history (step p) (System.start w) events, agrees p t.before t.input = true :=
  history_keeps_iff (J := fun _ => True) (I := fun s : System Payload => Routed s.world) (fun _ _ _ => trivial) (fun _ e _ before => routed_step before e) trivial routed events

/-- A check of the monitor, once the replica is behind by this much. -/
def lagChecked (lagMs : Nat) : List (Event (Task String) Outside) := .outside (.setLag lagMs) :: .start 4 .lagCheck :: calls 4 4

/-- A check whose probe comes through, with an empty buffer. -/
def reached : List (Event (Task String) Outside) := .start 1 .check :: calls 1 10

/-- The replica falls behind, the primary is lost, the replica catches up, the primary comes back. -/
def routedAfter : List (Event (Task String) Outside) := lagChecked 5000 ++ partitioned ++ lagChecked 100 ++ reached

theorem routedAfter_agrees :
    (∀ t ∈ history (step samplePlatform) (System.start sampleWorld) routedAfter, agrees samplePlatform t.before t.input = true) ∧
      (run (step samplePlatform) (System.start sampleWorld) routedAfter).world.controller.state = .HEALTHY := by decide +kernel

theorem routed_after :
    (∀ t ∈ history (step samplePlatform) (System.start sampleWorld) routedAfter, Routed t.after.world) ∧
      (run (step samplePlatform) (System.start sampleWorld) routedAfter).world.controller.state = .HEALTHY :=
  ⟨(routed_iff samplePlatform sampleWorld ⟨by rintro ⟨⟩,fun _ => by rintro ⟨⟩⟩ routedAfter).mpr routedAfter_agrees.1,
    routedAfter_agrees.2⟩

/-- The primary is lost, then the replica falls behind. -/
def lagsDegraded : List (Event (Task String) Outside) := partitioned ++ lagChecked 5000

/-- The replica falls behind, then the primary is lost and comes back. -/
def lagsRecovered : List (Event (Task String) Outside) := lagChecked 5000 ++ partitioned ++ reached

theorem routing_runs :
    (let s := run (step samplePlatform) (System.start sampleWorld) lagsDegraded
     s.world.controller.state = .DEGRADED_READ_ONLY ∧ s.world.activeReadTarget = .PRIMARY ∧
       s.pending 1 = none ∧ s.pending 4 = none) ∧
    (let s := run (step samplePlatform) (System.start sampleWorld) lagsRecovered
     s.world.controller.state = .HEALTHY ∧ s.world.monitor.state = .LAGGING ∧ s.world.activeReadTarget = .REPLICA ∧
       s.pending 1 = none ∧ s.pending 4 = none) := by decide +kernel

theorem ended_of {events : List (Event (Task String) Outside)} (among : ∀ e ∈ events, e.number.all [1,4].contains = true)
    (first : (run (step samplePlatform) (System.start sampleWorld) events).pending 1 = none)
    (second : (run (step samplePlatform) (System.start sampleWorld) events).pending 4 = none) (c : Nat) :
    (run (step samplePlatform) (System.start sampleWorld) events).pending c = none := by
  refine process_run_ended [1,4] among (fun d listed => ?_) c
  rcases List.mem_pair.mp listed with rfl | rfl
  · exact first
  · exact second

theorem reads_misrouted :
    (¬ ∀ events, (∀ c, (run (step samplePlatform) (System.start sampleWorld) events).pending c = none) →
      (run (step samplePlatform) (System.start sampleWorld) events).world.controller.state = .DEGRADED_READ_ONLY →
        (run (step samplePlatform) (System.start sampleWorld) events).world.activeReadTarget = .REPLICA) ∧
    ¬ ∀ events, (∀ c, (run (step samplePlatform) (System.start sampleWorld) events).pending c = none) →
      (run (step samplePlatform) (System.start sampleWorld) events).world.controller.state = .HEALTHY →
      (run (step samplePlatform) (System.start sampleWorld) events).world.monitor.state = .LAGGING →
        (run (step samplePlatform) (System.start sampleWorld) events).world.activeReadTarget = .PRIMARY := by
  obtain ⟨⟨degraded,primary,first,second⟩,healthy,lagging,replica,first',second'⟩ := routing_runs
  refine ⟨fun routed => ?_,fun routed => ?_⟩
  · have target := routed lagsDegraded (ended_of (by decide) first second) degraded
    rw [primary] at target
    cases target
  · have target := routed lagsRecovered (ended_of (by decide) first' second') healthy lagging
    rw [replica] at target
    cases target

end StellarAlerts.DbFailover
