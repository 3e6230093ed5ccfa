import Mathlib.Data.Finset.Basic
import Mathlib.Data.Fintype.EquivFin
import Telemetry.Proofs.Sink.Pausing
import Telemetry.Proofs.Sink.Operations
import Telemetry.Proofs.Storage.Reliable

/-! What a stop leaves behind where nothing hinders it.
Where no request fails and every job that the stop waits for can go on before a moment,
the stop has its flush before that moment too, and then nothing is left to be written or
sent. A flush that has to wait for other jobs leaves the rest to them. -/
namespace Telemetry

namespace Service

variable {S σ κ : Type}

section Draining

variable [Storage S] [Duty σ κ]

/-- What the job of a call leaves behind: all is done or left to other jobs, or the job has
to wait for another one. -/
def LeavesCall (P : S → Prop) (J : σ → List (Bool × κ) → Prop) (now : Tick)
    (jobs : List (Bool × κ)) : Progress κ × Stage S σ → Prop
  | (.finished _, g) => P g.world.store ∧ J g.state jobs
  | (.waiting job, g) => P g.world.store ∧ J g.state ((true, job) :: jobs) ∧
      isReached now (Duty.wake? job g.state) = false

end Draining

/-- Jobs that leave nothing behind where nothing hinders them. -/
class Draining (S σ : Type) (κ : outParam Type) [Storage S] [Duty σ κ] [Work S σ κ] where
  /-- Nothing is left to be written or sent. -/
  Drained : σ → Prop
  /-- Nothing hinders the jobs, and those that are marked can go on before a moment. With the
  flag set, these jobs also take care of all that is left. -/
  Smooth : Tick → Bool → σ → List (Bool × κ) → Prop
  keepsAt : ∀ {P : S → Prop}, Storage.Reliable P → ∀ (limit now : Tick) (flag : Bool),
    KeepsAt now (fun _ (g : Stage S σ) jobs => P g.world.store ∧ Smooth limit flag g.state jobs)
  begin_call : ∀ {P : S → Prop}, Storage.Reliable P → ∀ {limit : Tick} {flag : Bool} (now : Tick)
    {g : Stage S σ} {jobs : List (Bool × κ)}, P g.world.store → Smooth limit flag g.state jobs →
    LeavesCall P (Smooth limit true) now jobs (Work.begin now g)
  resume_call : ∀ {P : S → Prop}, Storage.Reliable P → ∀ {limit now : Tick} {g : Stage S σ}
    {job : κ} {jobs : List (Bool × κ)}, P g.world.store →
    Smooth limit true g.state ((true, job) :: jobs) →
    isReached now (Duty.wake? job g.state) = true →
    LeavesCall P (Smooth limit true) now jobs (Work.resume now job g)
  /-- A job that has to wait for another one may be given up. -/
  abandon : ∀ {limit now : Tick} {s : σ} {job : κ} {jobs : List (Bool × κ)},
    Smooth limit true s ((true, job) :: jobs) → isReached now (Duty.wake? job s) = false →
    Smooth limit true (Duty.abandon job s) jobs
  next : ∀ {limit : Tick} {flag : Bool} {s : σ} {job : κ} {jobs : List (Bool × κ)},
    Smooth limit flag s jobs → (true, job) ∈ jobs → 0 < limit →
    ∃ other ∈ jobs, ∃ t < limit, Duty.wake? other.2 s = some t
  drained : ∀ {limit : Tick} (now : Tick) {s : σ} {jobs : List (Bool × κ)},
    Smooth limit true s jobs →
    (∀ other ∈ jobs, isReached now (Duty.wake? other.2 s) = false) → Drained s

/-- The job of a call stands among those that are waited for. -/
def callJobs (call : Option (Call κ)) : List (Bool × κ) :=
  (call.bind Call.job?).toList.map fun job => (true, job)

/-- The flush of a call has begun, or there is none to begin. -/
def hasFlushed (call : Option (Call κ)) : Bool :=
  match call with
  | some (.joining ..) => false
  | _ => true

variable [Storage S] [Duty σ κ] [Work S σ κ] [Draining S σ κ]

variable (S) in
/-- A stop that nothing hinders, which waits or has waited for a task. -/
structure Clearing (limit : Tick) (id : Nat) (s : Service S σ κ) : Prop where
  told : ∀ t ∈ s.tasks, t.id = id → t.cancelled = true
  joins : ∀ task timeout, s.call = some (.joining task timeout) → task = id
  smooth : Draining.Smooth S limit (hasFlushed s.call) s.state
    (callJobs s.call ++ marked id s.tasks)

namespace Clearing

variable {P : S → Prop} {limit now : Tick} {id : Nat} {s : Service S σ κ} {w : World S}

theorem afterCallJob {timeout : Span} {deadline : Tick} {p : Progress κ × Stage S σ}
    (told : ∀ t ∈ s.tasks, t.id = id → t.cancelled = true)
    (leaves : LeavesCall P (Draining.Smooth S limit true) now (marked id s.tasks) p) :
    P (afterCallJob now timeout deadline s p).2.store ∧
      Clearing S limit id (afterCallJob now timeout deadline s p).1 := by
  obtain ⟨progress, g⟩ := p
  cases progress with
  | finished result => exact ⟨leaves.1, told, fun _ _ call => (by cases call), leaves.2⟩
  | waiting job =>
    obtain ⟨works, smooth, asleep⟩ := leaves
    simp only [Service.afterCallJob]
    split
    · exact ⟨works, told, fun _ _ call => (by cases call), Draining.abandon smooth asleep⟩
    · exact ⟨works, told, fun _ _ call => (by cases call), smooth⟩

theorem beginFlush (reliable : Storage.Reliable P) {flag : Bool} (now : Tick) (timeout : Span)
    (told : ∀ t ∈ s.tasks, t.id = id → t.cancelled = true) (works : P w.store)
    (smooth : Draining.Smooth S limit flag s.state (marked id s.tasks)) :
    P (beginFlush now timeout s w).2.store ∧
      Clearing S limit id (beginFlush now timeout s w).1 :=
  afterCallJob told (Draining.begin_call reliable now (g := s.stage w) works smooth)

theorem pollCall (reliable : Storage.Reliable P) (works : P w.store)
    (clearing : Clearing S limit id s) :
    P (pollCall now s w).2.store ∧ Clearing S limit id (pollCall now s w).1 := by
  unfold Service.pollCall
  split
  · exact ⟨works, clearing⟩
  · have smooth := clearing.smooth
    cases inHand : s.call with
    | none => exact ⟨works, clearing⟩
    | some call =>
      rw [inHand] at smooth
      cases call with
      | ended result => exact ⟨works, clearing⟩
      | joining task timeout => exact beginFlush reliable now timeout clearing.told works smooth
      | working job timeout deadline =>
        simp only
        split
        · rename_i woken
          exact afterCallJob clearing.told
            (Draining.resume_call reliable (g := s.stage w) works smooth woken)
        · rename_i asleep
          exact afterCallJob clearing.told ⟨works, smooth, Bool.eq_false_iff.mpr asleep⟩

theorem pollTasks [Discreet S σ κ] (reliable : Storage.Reliable P) (works : P w.store)
    (clearing : Clearing S limit id s) :
    P (pollTasks now s w).2.store ∧ Clearing S limit id (pollTasks now s w).1 := by
  have K := Draining.keepsAt (S := S) (σ := σ) reliable limit now (hasFlushed s.call)
  have start : P (s.stage w).world.store ∧ Draining.Smooth S limit (hasFlushed s.call)
      (s.stage w).state (marked id s.tasks ++ callJobs s.call) :=
    K.perm 0 List.perm_append_comm ⟨works, clearing.smooth⟩
  obtain ⟨_, kept, _⟩ := K.pollList start (.inl (Nat.le_refl w.further))
  obtain ⟨works', smooth⟩ := K.perm 0 List.perm_append_comm kept
  refine ⟨works', fun t member here => ?_, clearing.joins, smooth⟩
  obtain ⟨t', there, number, cancelled, _⟩ := mem_pollList member
  rw [cancelled]
  exact clearing.told t' there (number ▸ here)

omit [Storage S] [Work S σ κ] [Draining S σ κ] in
theorem callJobs_endCall (ended : s.result?.isSome = true) :
    callJobs s.endCall.call = callJobs s.call ∧ hasFlushed s.endCall.call = hasFlushed s.call ∧
      s.endCall.state = s.state ∧ s.endCall.tasks = s.tasks := by
  cases inHand : s.call with
  | none => simp [result?, inHand] at ended
  | some call => cases call <;> simp_all [result?, endCall, callJobs, hasFlushed, Call.job?]

theorem endCall (ended : s.result?.isSome = true) (clearing : Clearing S limit id s) :
    Clearing S limit id s.endCall := by
  obtain ⟨jobs, flushed, state, tasks⟩ := callJobs_endCall ended
  refine ⟨?_, ?_, ?_⟩
  · rw [tasks]
    exact clearing.told
  · rw [endCall_call]
    nofun
  · rw [jobs, flushed, state, tasks]
    exact clearing.smooth

omit [Storage S] [Work S σ κ] [Draining S σ κ] in
theorem due_of_job {other : Bool × κ} {t : Tick}
    (member : other ∈ callJobs s.call ++ marked id s.tasks)
    (wake : Duty.wake? other.2 s.state = some t) : ∃ t', s.due = some t' ∧ t' ≤ t := by
  rcases List.mem_append.mp member with called | waited
  · obtain ⟨job, under, rfl⟩ := List.mem_map.mp called
    obtain ⟨call, inHand, same⟩ := Option.bind_eq_some_iff.mp (Option.mem_toList.mp under)
    cases call with
    | joining | ended => cases same
    | working job' timeout deadline =>
      cases same
      have due : s.callDue = earliest (Duty.wake? job s.state) (some deadline) := by
        simp [callDue, inHand]
      refine isReached_iff.mp (reached_of_call ?_)
      rw [due, isReached_earliest, wake]
      simp [isReached]
  · obtain ⟨task, there, under, _⟩ := mem_marked.mp waited
    have due : taskDue s.state task = some t := by simpa [taskDue, under] using wake
    exact exists_due (fun reached => reached_of_task there reached) due

/-- As long as the stop has not ended there is something to wait for in time. -/
theorem next (clearing : Clearing S limit id s) (quiet : isReached now s.due = false)
    (running : s.result? = none) (calls : s.call ≠ none) (before : now < limit) :
    ∃ t, s.due = some t ∧ t < limit := by
  have awaited : ∃ job, (true, job) ∈ callJobs s.call ++ marked id s.tasks := by
    cases inHand : s.call with
    | none => exact absurd inHand calls
    | some call =>
      cases call with
      | ended result => simp [result?, inHand] at running
      | working job timeout deadline => exact ⟨job, List.mem_cons_self⟩
      | joining task timeout =>
        obtain rfl := clearing.joins task timeout inHand
        obtain ⟨_, _, job, _, waited⟩ := awaited_of_quiet quiet inHand clearing.told
        exact ⟨job, List.mem_append_right _ waited⟩
  obtain ⟨job, waited⟩ := awaited
  obtain ⟨other, member, t, early, wake⟩ :=
    Draining.next clearing.smooth waited (Nat.zero_lt_of_lt before)
  obtain ⟨t', due, first⟩ := due_of_job member wake
  exact ⟨t', due, Nat.lt_of_le_of_lt first early⟩

/-- When the stop has ended and nothing can be done any more, nothing is left. -/
theorem drained (clearing : Clearing S limit id s) (quiet : isReached now s.due = false)
    (free : s.call = none) : Draining.Drained S s.state := by
  have smooth := clearing.smooth
  rw [free] at smooth
  refine Draining.drained now smooth fun other member => ?_
  by_contra reached
  obtain ⟨t, wake, come⟩ := isReached_iff.mp (Bool.eq_true_of_not_eq_false reached)
  obtain ⟨t', due, first⟩ := due_of_job (free ▸ member) wake
  rw [due] at quiet
  have late : now < t' := by simpa [isReached] using quiet
  exact absurd (Nat.le_trans first come) (Nat.not_le_of_lt late)

omit [Storage S] [Duty σ κ] [Work S σ κ] [Draining S σ κ] in
theorem awaited_of_none (stopped : s.handle = none) (fresh : ∀ t ∈ s.tasks, t.id ≠ id) :
    s.awaited = marked id s.tasks := by
  refine List.filterMap_congr fun t member => ?_
  have other : (t.id == id) = false := beq_eq_false_iff_ne.mpr (fresh t member)
  simp [stopped, other]

omit [Storage S] [Duty σ κ] [Work S σ κ] [Draining S σ κ] in
theorem exists_fresh (s : Service S σ κ) : ∃ id, ∀ t ∈ s.tasks, t.id ≠ id := by
  obtain ⟨id, fresh⟩ := Infinite.exists_notMem_finset (s.tasks.map Task.id).toFinset
  exact ⟨id, fun t member same => fresh (by simpa using ⟨t, member, same⟩)⟩

theorem beginStop (reliable : Storage.Reliable P) (timeout : Span) (works : P w.store)
    (smooth : Draining.Smooth S limit false s.state s.awaited) :
    P (beginStop now timeout s w).2.store ∧
      ∃ id, Clearing S limit id (beginStop now timeout s w).1 := by
  unfold Service.beginStop
  split
  · rename_i stopped
    obtain ⟨id, fresh⟩ := exists_fresh s
    rw [awaited_of_none stopped fresh] at smooth
    have begun := beginFlush reliable now timeout
      (fun t member same => absurd same (fresh t member)) works smooth
    exact ⟨begun.1, id, begun.2⟩
  · rename_i id running
    rw [awaited_eq running] at smooth
    refine ⟨works, id, fun t member here => ?_, fun task given same => ?_, smooth⟩
    · obtain ⟨t', _, _, rfl⟩ := exists_told member here
      rfl
    · cases same
      rfl

end Clearing

/-- Jobs that pause, and whose attempts succeed at once where no request fails. -/
class Attempting (S σ : Type) (κ : outParam Type) [Storage S] [Duty σ κ] [Work S σ κ] where
  Sound : σ → Prop
  Clean : σ → Prop
  notice : ∀ s : σ, (Sound s → Sound (Duty.takeNotice s)) ∧ (Clean s → Clean (Duty.takeNotice s))
  begin_done : ∀ {P : S → Prop}, Storage.Reliable P → ∀ (now : Tick) {g : Stage S σ},
    P g.world.store → Sound g.state → ∃ result g', Work.begin now g = (.finished result, g') ∧
      P g'.world.store ∧ Sound g'.state ∧ Clean g'.state
  resume_done : ∀ {P : S → Prop}, Storage.Reliable P → ∀ (now : Tick) (job : κ) {g : Stage S σ},
    P g.world.store → Sound g.state → ∃ result g', Work.resume now job g = (.finished result, g') ∧
      P g'.world.store ∧ Sound g'.state ∧ Clean g'.state
  abandon : ∀ (job : κ) (s : σ), Duty.abandon job s = s

section Attempting

variable {S σ κ : Type} [Storage S] [Duty σ κ] [Work S σ κ] [Pausing S σ κ] [Attempting S σ κ]

variable (S) in
/-- The pauses that are waited for end before a moment, and nothing waits once the flag is
set. -/
structure Timely (limit : Tick) (flag : Bool) (s : σ) (jobs : List (Bool × κ)) : Prop where
  sound : Attempting.Sound S s
  early : ∀ job, (true, job) ∈ jobs → (Pausing.pause S σ job).wake < limit
  clean : flag = true → Attempting.Clean S s

theorem Timely.begin {P : S → Prop} (reliable : Storage.Reliable P) {limit : Tick} (now : Tick)
    {flag : Bool} (mark : Bool) {g : Stage S σ} {jobs : List (Bool × κ)}
    (kept : P g.world.store ∧ Timely S limit flag g.state jobs) :
    Leaves (fun (g : Stage S σ) jobs => P g.world.store ∧ Timely S limit flag g.state jobs) mark
      jobs (Work.begin now g) := by
  obtain ⟨result, g', ran, works, sound, clean⟩ :=
    Attempting.begin_done reliable now kept.1 kept.2.sound
  rw [ran]
  exact ⟨works, sound, kept.2.early, fun _ => clean⟩

theorem Timely.keepsAt {P : S → Prop} (reliable : Storage.Reliable P) (limit now : Tick)
    (flag : Bool) : KeepsAt now (fun _ (g : Stage S σ) (jobs : List (Bool × κ)) =>
      P g.world.store ∧ Timely S limit flag g.state jobs) where
  perm _ _ _ _ same kept :=
    ⟨kept.1, { kept.2 with early := fun job member => kept.2.early job (same.mem_iff.mpr member) }⟩
  surroundings state store kept := by rwa [state, store]
  notice {_ g _} kept :=
    ⟨kept.1, (Attempting.notice (S := S) g.state).1 kept.2.sound, kept.2.early,
      fun set => (Attempting.notice (S := S) g.state).2 (kept.2.clean set)⟩
  begin kept := Timely.begin reliable now false kept
  begin_told kept := Timely.begin reliable now true kept
  resume {_ g mark job jobs} kept _ := by
    obtain ⟨result, g', ran, works, sound, clean⟩ :=
      Attempting.resume_done reliable now job kept.1 kept.2.sound
    rw [ran]
    exact ⟨works, sound, fun other member => kept.2.early other (List.mem_cons_of_mem _ member),
      fun _ => clean⟩

instance : Draining S σ κ where
  Drained := Attempting.Clean S
  Smooth := Timely S
  keepsAt := Timely.keepsAt
  begin_call {_} reliable {limit flag} now {g jobs} works smooth := by
    obtain ⟨result, g', ran, works', sound, clean⟩ :=
      Attempting.begin_done reliable now works smooth.sound
    rw [ran]
    exact ⟨works', sound, smooth.early, fun _ => clean⟩
  resume_call {_} reliable {limit now g job jobs} works smooth _ := by
    obtain ⟨result, g', ran, works', sound, clean⟩ :=
      Attempting.resume_done reliable now job works smooth.sound
    rw [ran]
    exact ⟨works', sound, fun other member => smooth.early other (List.mem_cons_of_mem _ member),
      fun _ => clean⟩
  abandon {limit now s job jobs} smooth _ := by
    rw [Attempting.abandon S]
    exact ⟨smooth.sound, fun other member => smooth.early other (List.mem_cons_of_mem _ member),
      smooth.clean⟩
  next {limit flag s job jobs} smooth member _ :=
    ⟨_, member, _, smooth.early job member, Pausing.wake? job s⟩
  drained {_} _ {_ _} smooth _ := smooth.clean rfl

end Attempting

end Service

/-- A sink of which nothing is left behind by a stop that nothing hinders. -/
class Clearable (S : outParam Type) (α : Type) [Storage S] [Sink S α] [Settling S α]
    [Resting S α] where
  /-- Nothing hinders a stop, and what it waits for can go on before a moment. -/
  Unhindered : Tick → α → Prop
  /-- Such a stop was begun. -/
  Clearing : Tick → α → Prop
  /-- Nothing is left to be written or sent. -/
  Drained : α → Prop
  beginStop : ∀ {P : S → Prop}, Storage.Reliable P → ∀ {limit : Tick} (now : Tick) (timeout : Span)
    {a : α} {w : World S}, P w.store → Unhindered limit a →
    P (Sink.beginStop now timeout a w).2.store ∧ Clearing limit (Sink.beginStop now timeout a w).1
  pollCall : ∀ {P : S → Prop}, Storage.Reliable P → ∀ {limit : Tick} (now : Tick) {a : α}
    {w : World S}, P w.store → Clearing limit a →
    P (Sink.pollCall now a w).2.store ∧ Clearing limit (Sink.pollCall now a w).1
  pollTasks : ∀ {P : S → Prop}, Storage.Reliable P → ∀ {limit : Tick} (now : Tick) {a : α}
    {w : World S}, P w.store → Clearing limit a →
    P (Sink.pollTasks now a w).2.store ∧ Clearing limit (Sink.pollTasks now a w).1
  endCall : ∀ {limit : Tick} {a : α}, (Sink.result? a).isSome = true → Clearing limit a →
    Clearing limit (Sink.endCall a)
  next : ∀ {limit now : Tick} {a : α}, Clearing limit a →
    Service.isReached now (Sink.due a) = false → Sink.result? a = none → ¬ Resting.Free a →
    now < limit → ∃ t, Sink.due a = some t ∧ t < limit
  drained : ∀ {limit now : Tick} {a : α}, Clearing limit a →
    Service.isReached now (Sink.due a) = false → Resting.Free a → Drained a

instance {S σ κ : Type} [Storage S] [Duty σ κ] [Work S σ κ] [Service.Paced S σ κ]
    [Service.Discreet S σ κ] [Service.Draining S σ κ] : Clearable S (Service S σ κ) where
  Unhindered limit s := Service.Draining.Smooth S limit false s.state s.awaited
  Clearing limit s := ∃ id, Service.Clearing S limit id s
  Drained s := Service.Draining.Drained S s.state
  beginStop reliable _ _ timeout _ _ works smooth :=
    Service.Clearing.beginStop reliable timeout works smooth
  pollCall reliable _ _ _ _ works clearing :=
    have ⟨id, clears⟩ := clearing
    have after := clears.pollCall reliable works
    ⟨after.1, id, after.2⟩
  pollTasks reliable _ _ _ _ works clearing :=
    have ⟨id, clears⟩ := clearing
    have after := clears.pollTasks reliable works
    ⟨after.1, id, after.2⟩
  endCall ended clearing := clearing.imp fun _ clears => clears.endCall ended
  next clearing quiet running calls before :=
    have ⟨_, clears⟩ := clearing
    clears.next quiet running calls before
  drained clearing quiet free :=
    have ⟨_, clears⟩ := clearing
    clears.drained quiet free

end Telemetry
