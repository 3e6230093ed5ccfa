import Telemetry.Proofs.Sink.Pauses
import Telemetry.Proofs.Sink.Stopping

/-! Sinks whose jobs only pause between attempts.
Such a job waits for one moment after another, whatever others do meanwhile, and its
policy bounds them all. A stop of such a sink ends within its time limit after the last
pause that the job of its task may still take. -/
namespace Telemetry.Service

/-- Jobs that wait between their attempts and for nothing else, under a policy that nothing
changes. -/
class Pausing (S σ : Type) (κ : outParam Type) [Duty σ κ] [Work S σ κ] extends
    Discreet S σ κ where
  pause : κ → Pause
  policy : σ → RetryPolicy
  wake? : ∀ (job : κ) (s : σ), Duty.wake? job s = some (pause job).wake
  rounds : ∀ s : σ, Duty.rounds s = 0
  patience : ∀ s : σ, Duty.patience s = (policy s).patience
  begin_waits : ∀ {now : Tick} {g g' : Stage S σ} {job : κ},
    Work.begin now g = (.waiting job, g') → now < (pause job).wake ∧
      (pause job).wake + (policy g.state).remaining (pause job).retries ≤
        now + (policy g.state).remaining 0
  resume_waits : ∀ {now : Tick} {g g' : Stage S σ} {job job' : κ},
    Work.resume now job g = (.waiting job', g') → now < (pause job').wake ∧
      (pause job').wake + (policy g.state).remaining (pause job').retries ≤
        now + (policy g.state).remaining (pause job).retries
  accept_same : ∀ (r : Record) (g : Stage S σ),
    policy (Work.accept r g).state = policy g.state ∧
      Duty.period (Work.accept r g).state = Duty.period g.state
  policy_same : Untouched S policy
  period_same : Untouched S fun s : σ => Duty.period s

variable {S σ κ : Type} [Duty σ κ] [Work S σ κ] [Pausing S σ κ]

variable (S σ) in
/-- A job that pauses can go on once when its pause has ended. -/
def pauseLoad (now : Tick) (job : κ) : Nat :=
  if (Pausing.pause S σ job).wake ≤ now then 1 else 0

theorem pauseLoad_of_later {now : Tick} {job : κ} (later : now < (Pausing.pause S σ job).wake) :
    pauseLoad S σ now job = 0 :=
  if_neg (Nat.not_le_of_lt later)

instance : Paced S σ κ where
  load := pauseLoad S σ
  load_le now job := by
    unfold pauseLoad
    split <;> decide
  load_pos {now job s} reached := by
    rw [Pausing.wake? (S := S)] at reached
    have come : (Pausing.pause S σ job).wake ≤ now := by simpa [isReached] using reached
    rw [pauseLoad, if_pos come]
    exact Nat.one_pos
  begin_load now g := by
    rw [Pausing.rounds (S := S)]
    cases ran : Work.begin now g with
    | mk progress g' =>
      cases progress with
      | finished result => exact Nat.zero_le _
      | waiting job =>
        simp only [leftLoad, pauseLoad_of_later (Pausing.begin_waits ran).1]
        exact Nat.zero_le _
  resume_load {now job g} reached := by
    rw [Pausing.wake? (S := S)] at reached
    have come : (Pausing.pause S σ job).wake ≤ now := by simpa [isReached] using reached
    rw [Pausing.rounds (S := S), pauseLoad, if_pos come]
    cases ran : Work.resume now job g with
    | mk progress g' =>
      cases progress with
      | finished result => exact Nat.succ_pos _
      | waiting job' =>
        simp only [leftLoad, pauseLoad_of_later (Pausing.resume_waits ran).1]
        exact Nat.succ_pos _
  abandon_load job s := by rw [Pausing.rounds (S := S), Pausing.rounds (S := S)]
  notice_load s := by rw [Pausing.rounds (S := S), Pausing.rounds (S := S)]
  accept_period r g := (Pausing.accept_same r g).2
  period_same := Pausing.period_same

/-- By when a job ends that can go on from now on. -/
def lastMoment (policy : RetryPolicy) (now : Tick) (pause : Pause) : Tick :=
  max now pause.wake + policy.remaining pause.retries

variable (S) in
/-- The pauses of the marked jobs end by a moment, and so do those of as many more jobs that
are begun one after another. -/
def PauseBy (more : Nat) (limit now : Tick) (s : σ) (jobs : List (Bool × κ)) : Prop :=
  now + more * (Pausing.policy S s).remaining 0 ≤ limit ∧ ∀ job, (true, job) ∈ jobs →
    lastMoment (Pausing.policy S s) now (Pausing.pause S σ job) +
      more * (Pausing.policy S s).remaining 0 ≤ limit

namespace PauseBy

variable {more : Nat} {limit now : Tick} {g : Stage S σ} {jobs : List (Bool × κ)}

theorem of_mem {s s' : σ} {jobs' : List (Bool × κ)} (by_limit : PauseBy S more limit now s jobs)
    (same : Pausing.policy S s' = Pausing.policy S s)
    (waited : ∀ job, (true, job) ∈ jobs' → (true, job) ∈ jobs) :
    PauseBy S more limit now s' jobs' := by
  unfold PauseBy
  rw [same]
  exact ⟨by_limit.1, fun job member => by_limit.2 job (waited job member)⟩

/-- A job that is begun while others may be ends in the time of one of these. -/
theorem begin_told (by_limit : PauseBy S (more + 1) limit now g.state jobs) :
    Leaves (fun (g : Stage S σ) jobs => PauseBy S more limit now g.state jobs) true jobs
      (Work.begin now g) := by
  have same := Pausing.policy_same.begin now g
  obtain ⟨ahead, waited⟩ := by_limit
  rw [Nat.succ_mul] at ahead waited
  have others (job : κ) (member : (true, job) ∈ jobs) :
      lastMoment (Pausing.policy S g.state) now (Pausing.pause S σ job) +
        more * (Pausing.policy S g.state).remaining 0 ≤ limit := by
    have bound := waited job member
    lia
  cases ran : Work.begin now g with
  | mk progress g' =>
    rw [ran] at same
    cases progress with
    | finished result =>
      show PauseBy S more limit now g'.state jobs
      unfold PauseBy
      rw [same]
      exact ⟨by lia, others⟩
    | waiting job =>
      show PauseBy S more limit now g'.state ((true, job) :: jobs)
      unfold PauseBy
      rw [same]
      refine ⟨by lia, fun other member => ?_⟩
      rcases List.mem_cons.mp member with here | old
      · cases here
        obtain ⟨later, shorter⟩ := Pausing.begin_waits ran
        unfold lastMoment
        lia
      · exact others other old

/-- A job that goes on ends no later than it would have. -/
theorem resume {mark : Bool} {job : κ}
    (by_limit : PauseBy S more limit now g.state ((mark, job) :: jobs)) :
    Leaves (fun (g : Stage S σ) jobs => PauseBy S more limit now g.state jobs) mark jobs
      (Work.resume now job g) := by
  have same := Pausing.policy_same.resume now job g
  cases ran : Work.resume now job g with
  | mk progress g' =>
    rw [ran] at same
    cases progress with
    | finished result => exact by_limit.of_mem same fun other => List.mem_cons_of_mem _
    | waiting job' =>
      show PauseBy S more limit now g'.state ((mark, job') :: jobs)
      unfold PauseBy
      rw [same]
      refine ⟨by_limit.1, fun other member => ?_⟩
      rcases List.mem_cons.mp member with here | old
      · cases here
        have bound := by_limit.2 job List.mem_cons_self
        obtain ⟨later, shorter⟩ := Pausing.resume_waits ran
        unfold lastMoment at bound ⊢
        lia
      · exact by_limit.2 other (List.mem_cons_of_mem _ old)

theorem keepsAt (limit now : Tick) : KeepsAt now fun more (g : Stage S σ) jobs =>
    PauseBy S more limit now g.state jobs where
  perm _ _ _ _ same by_limit := by_limit.of_mem rfl fun _ member => same.mem_iff.mpr member
  surroundings same _ by_limit := by_limit.of_mem (by rw [same]) fun _ => id
  notice {_ g _} by_limit := by_limit.of_mem (Pausing.policy_same.notice g.state) fun _ => id
  begin {more g jobs} by_limit := by
    have same := Pausing.policy_same.begin now g
    cases ran : Work.begin now g with
    | mk progress g' =>
      rw [ran] at same
      cases progress with
      | finished result => exact by_limit.of_mem same fun _ => id
      | waiting job => exact by_limit.of_mem same fun _ member => by simpa using member
  begin_told := begin_told
  resume by_limit _ := resume by_limit

end PauseBy

instance : Punctual S σ κ where
  EndBy more limit now g jobs := PauseBy S more limit now g.state jobs
  keepsAt := PauseBy.keepsAt
  next {more limit now g jobs job} ends member := by
    refine ⟨_, member, (Pausing.pause S σ job).wake, ?_, Pausing.wake? job g.state⟩
    have bound := ends.2 job member
    unfold lastMoment at bound
    lia
  later {more limit now t g jobs job} ends waited order quiet := by
    have asleep (other : κ) (member : (true, other) ∈ jobs) :
        t ≤ (Pausing.pause S σ other).wake :=
      quiet _ member _ (Pausing.wake? other g.state)
    constructor
    · have bound := ends.2 job waited
      have before := asleep job waited
      unfold lastMoment at bound
      lia
    · intro other member
      have bound := ends.2 other member
      have before := asleep other member
      unfold lastMoment at bound ⊢
      lia
  patient {more more' limit limit' now g jobs} _ ahead enough := by
    have whole := (Pausing.policy S g.state).remaining_le_patience 0
    rw [← Pausing.patience (S := S)] at whole
    have further := Nat.mul_le_mul_left more' whole
    constructor
    · lia
    · intro job member
      have bound := enough _ member
      have rest := (Pausing.policy S g.state).remaining_le_patience (Pausing.pause S σ job).retries
      rw [← Pausing.patience (S := S)] at rest
      rw [Pausing.wake? (S := S), Option.getD_some] at bound
      unfold lastMoment
      lia

end Telemetry.Service
