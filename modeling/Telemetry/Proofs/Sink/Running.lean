import Telemetry.Proofs.Sink.Keeping
import Telemetry.Proofs.Sink.Settling

/-! The jobs that actions run.
An action runs one job at most, on the state that it finds: a new one, or one that is under
way. Apart from that it gives jobs up or takes a record in. -/
namespace Telemetry.Service

variable {S σ κ : Type} [Duty σ κ] [Work S σ κ]

/-- What comes of running a job on a stage: a new one, with a notice or without, or one of
those under way. -/
inductive Ran (g : Stage S σ) (jobs : List κ) : Progress κ × Stage S σ → Prop
  | begun (now : Tick) : Ran g jobs (Work.begin now g)
  | noticed (now : Tick) : Ran g jobs (Work.begin now { g with state := Duty.takeNotice g.state })
  | resumed (now : Tick) {job : κ} (underWay : job ∈ jobs) : Ran g jobs (Work.resume now job g)

/-- A part of the state that the run of a job leaves, or the one that was there before. -/
def Becomes {α : Type} (part : σ → α) (g : Stage S σ) (jobs : List κ) (after : α) : Prop :=
  after = part g.state ∨ ∃ p, Ran g jobs p ∧ after = part p.2.state

variable {α : Type} {part : σ → α}

/-- What a job that begins makes of a part of the state does not depend on the scheduler. -/
def Unpicked (part : σ → α) : Prop :=
  ∀ (now : Tick) (g : Stage S σ) (picks : List Bool),
    part (Work.begin now (g.picking picks)).2.state = part (Work.begin now g).2.state

theorem pollTask_becomes (unpicked : Unpicked (S := S) part) (now : Tick) {t : Task κ}
    {g : Stage S σ} {jobs : List κ} (underWay : ∀ job, t.job = some job → job ∈ jobs) :
    Becomes part g jobs (part (pollTask now t g).2.state) := by
  have outcome := polled now t g
  generalize pollTask now t g = p at outcome ⊢
  cases outcome with
  | idle | ended => exact .inl rfl
  | resumed running =>
    exact .inr ⟨_, .resumed now (underWay _ running), congrArg part (afterJob_state _ _)⟩
  | @begun picks =>
    have ran : part (beginJob now t (g.picking picks)).2.state =
        part (Work.begin now { g with state := readied g.state t }).2.state :=
      (congrArg part (afterJob_state _ _)).trans
        (unpicked now { g with state := readied g.state t } picks)
    rw [ran]
    unfold readied
    split_ifs
    · exact .inr ⟨_, .begun now, rfl⟩
    · exact .inr ⟨_, .noticed now, rfl⟩

theorem pollCall_becomes (abandon : ∀ job s, part (Duty.abandon job s) = part s) (now : Tick)
    {s : Service S σ κ} {w : World S} {jobs : List κ}
    (underWay : ∀ call job, s.call = some call → call.job? = some job → job ∈ jobs) :
    Becomes part (s.stage w) jobs (part (pollCall now s w).1.state) := by
  unfold pollCall
  split
  · exact .inl rfl
  · cases inHand : s.call with
    | none => exact .inl rfl
    | some call =>
      cases call with
      | ended result => exact .inl rfl
      | joining task timeout =>
        exact .inr ⟨_, .begun now, afterCallJob_part abandon now timeout _ s _⟩
      | working job timeout deadline =>
        simp only
        split_ifs
        · exact .inr ⟨_, .resumed now (underWay _ job inHand rfl),
            afterCallJob_part abandon now timeout deadline s _⟩
        · exact .inl (afterCallJob_part abandon now timeout deadline s _)

namespace Use

omit [Work S σ κ] in
theorem collect_part (abandon : ∀ job s, part (Duty.abandon job s) = part s) (u : Use S σ κ)
    (p : Service S σ κ × World S) : part (u.collect p).1.state = part p.1.state := by
  unfold collect
  split
  · exact endCall_part abandon p.1
  · rfl

omit [Duty σ κ] [Work S σ κ] in
theorem state_takeUp (u : Use S σ κ) (place : Nat) : (u.takeUp place).state = u.state := by
  unfold takeUp
  split <;> rfl

/-- A part of the state that stays as it is where a job is given up changes only by the job
that an action runs, unless the action takes a record in. -/
theorem step_becomes (abandon : ∀ job s, part (Duty.abandon job s) = part s)
    (unpicked : Unpicked (S := S) part) (u : Use S σ κ) {a : Action} (noRecord : ∀ r, a ≠ .log r) :
    Becomes part u.stage u.jobs (part (u.step a).1.state) := by
  have begun (now : Tick) (timeout : Span) : Becomes part u.stage u.jobs
      (part (u.layAside.collect (beginFlush now timeout u.layAside.sink u.world)).1.state) := by
    rw [collect_part abandon]
    exact .inr ⟨_, .begun now, afterCallJob_part abandon now timeout _ _ _⟩
  cases a with
  | log r => exact absurd rfl (noRecord r)
  | start inRuntime now =>
    exact .inl (congrArg (fun g : Stage S σ => part g.state) (u.stage_start inRuntime now))
  | flush now timeout => exact begun now timeout
  | stop now timeout =>
    cases handle : u.sink.handle with
    | none => simpa only [step, beginStop, layAside, handle] using begun now timeout
    | some id =>
      refine .inl ?_
      simp only [step, collect_part abandon, beginStop, layAside, handle]
      rfl
  | callOn now =>
    simp only [step, collect_part abandon]
    refine pollCall_becomes abandon now fun call job inHand working => ?_
    refine List.mem_append_right _ (List.mem_filterMap.mpr ⟨call, ?_, working⟩)
    simp [calls, inHand]
  | drop => exact .inl (endCall_part abandon u.sink)
  | turnTo place => exact .inl (congrArg part (u.state_takeUp place))
  | taskOn place now =>
    simp only [step, runTask]
    cases found : u.sink.tasks[place]? with
    | none => exact .inl rfl
    | some t =>
      refine pollTask_becomes unpicked now fun job running => ?_
      exact List.mem_append_left _
        (List.mem_filterMap.mpr ⟨t, List.mem_of_getElem? found, running⟩)
  | clocks wall steady => exact .inl rfl

end Use
end Telemetry.Service
