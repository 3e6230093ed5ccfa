import Telemetry.Sink.Basic
import Telemetry.Proofs.Sink.Steps

/-! Everything that can be done at a moment gets done.
What is left to be done at a moment is measured: by the ticks that have come, by the
jobs that can go on, and by what waits in the state. A task or a call that goes on
leaves less, so after as many rounds as the measure says nothing is due any more. -/
namespace Telemetry
open Service (isReached)

section Rounds

variable {τ : Type} {due : τ → Option Tick} {settle : Tick → τ → τ} {stop : τ → Bool}
  {horizon now : Tick}

/-- Where each round leaves less to be done, nothing is due after as many rounds. -/
theorem settleRounds_spec (Good : τ → Prop) (load : τ → Nat)
    (falls : ∀ q, Good q → isReached now (due q) = true →
      Good (settle now q) ∧ load (settle now q) < load q)
    (n : Nat) {q : τ} (good : Good q) (enough : load q ≤ n) :
    Good (settleRounds due settle now n q) ∧
      isReached now (due (settleRounds due settle now n q)) = false := by
  induction n generalizing q with
  | zero =>
    refine ⟨good, Bool.eq_false_iff.mpr fun reached => ?_⟩
    have less := (falls q good reached).2
    omega
  | succ n ih =>
    unfold settleRounds
    split
    · rename_i reached
      obtain ⟨good', less⟩ := falls q good reached
      exact ih good' (by omega)
    · rename_i quiet
      exact ⟨good, Bool.eq_false_iff.mpr quiet⟩

/-- Where there is always a next moment before the horizon, time passes until `stop`. -/
theorem runUntil_spec {I : Tick → τ → Prop}
    (next : ∀ t q, I t q → stop q = false →
      ∃ t', due q = some t' ∧ t < t' ∧ t' ≤ horizon ∧ I t' (settle t' q))
    {q : τ} (start : I now q) :
    let p := runUntil due settle stop horizon now q
    I p.1 p.2 ∧ stop p.2 = true ∧ now ≤ p.1 := by
  fun_induction runUntil due settle stop horizon now q with
  | case1 now q stopped => exact ⟨start, stopped, Nat.le_refl _⟩
  | case2 now q going idle =>
    obtain ⟨t, due, _⟩ := next now q start (Bool.eq_false_iff.mpr going)
    rw [idle] at due
    cases due
  | case3 now q going t due inside ih =>
    obtain ⟨t', due', _, _, later⟩ := next now q start (Bool.eq_false_iff.mpr going)
    obtain rfl : t = t' := Option.some.inj (due.symm.trans due')
    obtain ⟨kept, stopped, order⟩ := ih later
    exact ⟨kept, stopped, Nat.le_trans (Nat.le_of_lt inside.1) order⟩
  | case4 now q going t due outside =>
    obtain ⟨t', due', after, before, _⟩ := next now q start (Bool.eq_false_iff.mpr going)
    obtain rfl : t = t' := Option.some.inj (due.symm.trans due')
    exact absurd ⟨after, before⟩ outside

end Rounds

namespace Service

theorem isReached_iff {now : Tick} {d : Option Tick} :
    isReached now d = true ↔ ∃ t, d = some t ∧ t ≤ now := by
  cases d with
  | none => simp [isReached]
  | some t => simp [isReached]

theorem isReached_mono {now later : Tick} (order : now ≤ later) {d : Option Tick}
    (reached : isReached now d = true) : isReached later d = true := by
  obtain ⟨t, there, come⟩ := isReached_iff.mp reached
  exact isReached_iff.mpr ⟨t, there, Nat.le_trans come order⟩

theorem isReached_earliest (now : Tick) (a b : Option Tick) :
    isReached now (earliest a b) = (isReached now a || isReached now b) := by
  match a, b with
  | none, b => rfl
  | some x, none => exact (Bool.or_false _).symm
  | some x, some y =>
    have sooner : min x y ≤ now ↔ x ≤ now ∨ y ≤ now := by lia
    show decide (min x y ≤ now) = (decide (x ≤ now) || decide (y ≤ now))
    rw [← Bool.decide_or]
    exact decide_eq_decide.mpr sooner

theorem isReached_foldl {β : Type} (now : Tick) (f : β → Option Tick) (l : List β)
    (d : Option Tick) :
    isReached now (l.foldl (fun d b => earliest d (f b)) d) =
      (isReached now d || l.any fun b => isReached now (f b)) := by
  induction l generalizing d with
  | nil => simp
  | cons b rest ih => simp [ih, isReached_earliest, Bool.or_assoc]

/-- A moment that has come whenever another one has is no later than that. -/
theorem exists_due {d a : Option Tick} {t : Tick}
    (earlier : isReached t a = true → isReached t d = true) (there : a = some t) :
    ∃ t', d = some t' ∧ t' ≤ t :=
  isReached_iff.mp (earlier (isReached_iff.mpr ⟨t, there, Nat.le_refl _⟩))

/-- What a job that was run leaves to be done. -/
def leftLoad {κ : Type} (load : κ → Nat) : Progress κ → Nat
  | .finished _ => 0
  | .waiting job => load job

variable {S σ κ : Type}

/-- Jobs whose going on leaves less to be done at a moment, and which leave the period of
their state as it is. -/
class Paced (S σ : Type) (κ : outParam Type) [Duty σ κ] [Work S σ κ] where
  /-- How often a job can go on at a moment, apart from what waits in the state. -/
  load : Tick → κ → Nat
  load_le : ∀ now job, load now job ≤ 2
  load_pos : ∀ {now : Tick} {job : κ} {s : σ}, isReached now (Duty.wake? job s) = true →
    0 < load now job
  begin_load : ∀ (now : Tick) (g : Stage S σ),
    Duty.rounds (Work.begin now g).2.state + leftLoad (load now) (Work.begin now g).1 ≤
      Duty.rounds g.state + 1
  resume_load : ∀ {now : Tick} {job : κ} {g : Stage S σ},
    isReached now (Duty.wake? job g.state) = true →
    Duty.rounds (Work.resume now job g).2.state + leftLoad (load now) (Work.resume now job g).1 <
      Duty.rounds g.state + load now job
  abandon_load : ∀ (job : κ) (s : σ), Duty.rounds (Duty.abandon job s) = Duty.rounds s
  notice_load : ∀ s : σ, Duty.rounds (Duty.takeNotice s) = Duty.rounds s
  accept_period : ∀ (r : Record) (g : Stage S σ),
    Duty.period (Work.accept r g).state = Duty.period g.state
  period_same : Untouched S fun s : σ => Duty.period s

/-- How many ticks of a task can run at a moment: those that are late by more than the
tolerance count as one. -/
def behind (now tick : Tick) : Nat :=
  if tick + tickTolerance < now then 1 else now + 1 - tick

theorem behind_le (now tick : Tick) : behind now tick ≤ 6 := by
  unfold behind tickTolerance
  split <;> lia

theorem behind_nextTick {period now tick : Tick} (positive : 0 < period) (come : tick ≤ now) :
    behind now (nextTick period now tick) < behind now tick := by
  unfold behind nextTick tickTolerance
  split <;> split <;> lia

/-- What the ticks of a task leave to be done at a moment, and the end that it was told. -/
def restLoad (now : Tick) (tick : Option Tick) (cancelled : Bool) : Nat :=
  tick.elim 0 fun tick => 2 * behind now tick + cancelled.toNat

theorem restLoad_le (now : Tick) (tick : Option Tick) (cancelled : Bool) :
    restLoad now tick cancelled ≤ 13 := by
  cases tick with
  | none => exact Nat.zero_le _
  | some tick =>
    have bound := behind_le now tick
    have flag := Bool.toNat_le cancelled
    simp only [restLoad, Option.elim_some]
    omega

section Load

variable [Duty σ κ] [Work S σ κ] [Paced S σ κ]

variable (S σ) in
/-- What a task leaves to be done at a moment. A task without ticks has one job. -/
def taskLoad (now : Tick) (t : Task κ) : Nat :=
  match t.job with
  | some job => restLoad now t.tick t.cancelled + Paced.load S σ now job
  | none => if t.tick.isSome then restLoad now t.tick t.cancelled else 2

theorem taskLoad_le (now : Tick) (t : Task κ) : taskLoad S σ now t ≤ 15 := by
  have rest := restLoad_le now t.tick t.cancelled
  unfold taskLoad
  split
  · rename_i job _
    have bound := Paced.load_le (S := S) (σ := σ) now job
    omega
  · split <;> omega

theorem taskLoad_afterJob (now : Tick) (t : Task κ) (p : Progress κ × Stage S σ) :
    (afterJob t p).1.elim 0 (taskLoad S σ now) ≤
      restLoad now t.tick t.cancelled + leftLoad (Paced.load S σ now) p.1 := by
  obtain ⟨progress, g⟩ := p
  cases progress with
  | waiting job => exact Nat.le_refl _
  | finished result =>
    simp only [afterJob, leftLoad, Nat.add_zero]
    split
    · rename_i ticking
      simp [taskLoad, ticking]
    · exact Nat.zero_le _

/-- A task that begins a job leaves less than it would have. -/
theorem beginJob_load (now : Tick) {t : Task κ} {g : Stage S σ} (resting : t.job = none)
    (due : isReached now (jobDue g.state t) = true)
    (rhythm : t.tick.isSome = true → 0 < (Duty.period g.state).getD 0) :
    Duty.rounds (beginJob now t g).2.state + (beginJob now t g).1.elim 0 (taskLoad S σ now) <
      Duty.rounds g.state + taskLoad S σ now t := by
  have ready : Duty.rounds (readied g.state t) = Duty.rounds g.state := by
    unfold readied
    split
    · rfl
    · exact Paced.notice_load (S := S) g.state
  have less : _ ≤ Duty.rounds (readied g.state t) + 1 :=
    Paced.begin_load (S := S) now { g with state := readied g.state t }
  have after : (beginJob now t g).1.elim 0 (taskLoad S σ now) ≤ _ :=
    taskLoad_afterJob now (t.next ((Duty.period g.state).getD 0) now)
      (Work.begin now { g with state := readied g.state t })
  have state : (beginJob now t g).2.state = _ := afterJob_state _ _
  rw [ready] at less
  rw [state, taskLoad, resting]
  cases ticks : t.tick with
  | none =>
    simp only [Task.next, ticks, Option.map_none, restLoad, Option.elim_none] at after
    simp only [Option.isSome_none, Bool.false_eq_true, if_false]
    omega
  | some tick =>
    have come : tick ≤ now := by simpa [jobDue, ticks, isReached] using due
    have fewer := behind_nextTick (rhythm (by rw [ticks]; rfl)) come
    simp only [Task.next, ticks, Option.map_some, restLoad, Option.elim_some] at after
    simp only [Option.isSome_some, if_true, restLoad, Option.elim_some]
    omega

/-- A task that has something to do leaves less; another one stays as it is. -/
theorem pollTask_load (now : Tick) (t : Task κ) (g : Stage S σ)
    (rhythm : t.tick.isSome = true → 0 < (Duty.period g.state).getD 0) :
    if isReached now (taskDue g.state t) then
      Duty.rounds (pollTask now t g).2.state + (pollTask now t g).1.elim 0 (taskLoad S σ now) <
        Duty.rounds g.state + taskLoad S σ now t
    else pollTask now t g = (some t, g) := by
  split
  · rename_i reached
    have outcome := polled now t g
    generalize pollTask now t g = p at outcome ⊢
    cases outcome with
    | idle early => exact absurd reached (by simp [early])
    | @resumed job underWay woken =>
      have less := Paced.resume_load (S := S) woken
      have after := taskLoad_afterJob now t (Work.resume now job g)
      rw [afterJob_state, taskLoad, underWay]
      simp only
      omega
    | begun resting due => exact beginJob_load now resting due rhythm
    | ended resting told =>
      refine Nat.lt_add_of_pos_right ?_
      rw [taskLoad, resting, told]
      cases t.tick with
      | none => exact Nat.two_pos
      | some tick => exact Nat.succ_pos _
  · rename_i early
    simp [pollTask, early]

theorem pollList_load (now : Tick) (tasks : List (Task κ)) (g : Stage S σ)
    (rhythm : ∀ t ∈ tasks, t.tick.isSome = true → 0 < (Duty.period g.state).getD 0) :
    Duty.rounds (pollList now tasks g).2.state +
        ((pollList now tasks g).1.map (taskLoad S σ now)).sum +
        (tasks.any fun t => isReached now (taskDue g.state t)).toNat ≤
      Duty.rounds g.state + (tasks.map (taskLoad S σ now)).sum := by
  induction tasks generalizing g with
  | nil => exact Nat.le_refl _
  | cons t rest ih =>
    have here := pollTask_load now t g (rhythm t List.mem_cons_self)
    have later := ih (pollTask now t g).2 fun s member ticking => by
      rw [Paced.period_same.pollTask]
      exact rhythm s (List.mem_cons_of_mem _ member) ticking
    have split_sum : ((pollList now (t :: rest) g).1.map (taskLoad S σ now)).sum =
        (pollTask now t g).1.elim 0 (taskLoad S σ now) +
          ((pollList now rest (pollTask now t g).2).1.map (taskLoad S σ now)).sum := by
      cases lives : (pollTask now t g).1 <;> simp [pollList, lives]
    have state : (pollList now (t :: rest) g).2 = (pollList now rest (pollTask now t g).2).2 := rfl
    rw [split_sum, state, List.map_cons, List.sum_cons]
    have flag := Bool.toNat_le ((t :: rest).any fun t => isReached now (taskDue g.state t))
    split at here
    · omega
    · rename_i idle
      simp only [here, Option.elim_some] at later ⊢
      simp only [List.any_cons, Bool.eq_false_iff.mpr idle, Bool.false_or]
      omega

variable (S σ) in
def callLoad (now : Tick) : Option (Call κ) → Nat
  | none | some (.ended _) => 0
  | some (.joining ..) => 3
  | some (.working job _ _) => 1 + Paced.load S σ now job

def load (now : Tick) (s : Service S σ κ) : Nat :=
  Duty.rounds s.state + callLoad S σ now s.call + (s.tasks.map (taskLoad S σ now)).sum

theorem callLoad_le (now : Tick) (call : Option (Call κ)) : callLoad S σ now call ≤ 3 := by
  match call with
  | none | some (.ended _) => exact Nat.zero_le _
  | some (.joining ..) => exact Nat.le_refl _
  | some (.working job _ _) =>
    have bound := Paced.load_le (S := S) (σ := σ) now job
    simp only [callLoad]
    omega

theorem load_le_rounds (now : Tick) (s : Service S σ κ) : s.load now ≤ Sink.rounds s := by
  have call := callLoad_le (S := S) (σ := σ) now s.call
  have tasks : (s.tasks.map (taskLoad S σ now)).sum ≤ 15 * s.tasks.length := by
    induction s.tasks with
    | nil => exact Nat.le_refl _
    | cons t rest ih =>
      have bound := taskLoad_le (S := S) (σ := σ) now t
      simp only [List.map_cons, List.sum_cons, List.length_cons]
      omega
  show _ ≤ Duty.rounds s.state + 16 * (s.tasks.length + 1)
  unfold load
  omega

/-- Tasks with ticks have a period. -/
def Rhythmic (s : Service S σ κ) : Prop :=
  ∀ t ∈ s.tasks, t.tick.isSome = true → 0 < (Duty.period s.state).getD 0

omit [Work S σ κ] [Paced S σ κ] in
theorem rhythmic_ofState (state : σ) : (ofState state : Service S σ κ).Rhythmic :=
  nofun

theorem pollTasks_load (now : Tick) {s : Service S σ κ} (w : World S) (rhythmic : s.Rhythmic) :
    (pollTasks now s w).1.load now +
        (s.tasks.any fun t => isReached now (taskDue s.state t)).toNat ≤ s.load now := by
  have less := pollList_load now s.tasks (s.stage w) rhythmic
  simp only [pollTasks, putStage, load]
  simp only [stage] at less ⊢
  omega

theorem afterCallJob_load (now : Tick) (timeout : Span) (deadline : Tick) (s : Service S σ κ)
    (p : Progress κ × Stage S σ) :
    (afterCallJob now timeout deadline s p).1.load now ≤
      Duty.rounds p.2.state + leftLoad (Paced.load S σ now) p.1 + 1 +
        (s.tasks.map (taskLoad S σ now)).sum := by
  obtain ⟨progress, g⟩ := p
  cases progress with
  | finished result =>
    simp only [afterCallJob, putStage, load, callLoad, leftLoad]
    omega
  | waiting job =>
    simp only [afterCallJob]
    split
    · simp only [putStage, load, callLoad, leftLoad, Paced.abandon_load (S := S) job]
      omega
    · simp only [putStage, load, callLoad, leftLoad]
      omega

/-- A call that has something to do leaves less; another one stays as it is. -/
theorem pollCall_load (now : Tick) (s : Service S σ κ) (w : World S) :
    if isReached now s.callDue then (pollCall now s w).1.load now < s.load now
    else pollCall now s w = (s, w) := by
  split
  · rename_i reached
    unfold pollCall
    simp only [reached, Bool.not_true, Bool.false_eq_true, if_false]
    cases inHand : s.call with
    | none => simp [callDue, inHand, isReached] at reached
    | some call =>
      cases call with
      | ended result => simp [callDue, inHand, isReached] at reached
      | joining task timeout =>
        have less := Paced.begin_load (S := S) now (s.stage w)
        have after := afterCallJob_load now timeout (now + timeout.ticks) s
          (Work.begin now (s.stage w))
        simp only [beginFlush, load, inHand, callLoad] at after ⊢
        simp only [stage] at less after ⊢
        omega
      | working job timeout deadline =>
        simp only
        split
        · rename_i woken
          have less := Paced.resume_load (S := S) (g := s.stage w) woken
          have after := afterCallJob_load now timeout deadline s (Work.resume now job (s.stage w))
          simp only [load, inHand, callLoad] at after ⊢
          simp only [stage] at less after ⊢
          omega
        · rename_i asleep
          have due : s.callDue = earliest (Duty.wake? job s.state) (some deadline) := by
            simp [callDue, inHand]
          rw [due, isReached_earliest, Bool.eq_false_iff.mpr asleep, Bool.false_or] at reached
          have late : deadline ≤ now := by simpa [isReached] using reached
          simp only [afterCallJob, late, if_true, putStage, stage, load, inHand, callLoad,
            Paced.abandon_load (S := S) job]
          omega
  · rename_i idle
    simp [pollCall, idle]

theorem endCall_load (now : Tick) (s : Service S σ κ) : s.endCall.load now ≤ s.load now := by
  unfold endCall
  split
  · simp only [load, callLoad, Paced.abandon_load (S := S)]
    omega
  · simp only [load, callLoad]
    omega

omit [Work S σ κ] [Paced S σ κ] in
theorem endCall_call (s : Service S σ κ) : s.endCall.call = none := by
  unfold endCall
  split <;> rfl

omit [Work S σ κ] [Paced S σ κ] in
theorem endCall_of_none {s : Service S σ κ} (free : s.call = none) : s.endCall = s := by
  obtain ⟨state, reporter, tasks, handle, nextId, call⟩ := s
  cases free
  rfl

theorem rhythmic_pollTasks (now : Tick) {s : Service S σ κ} (w : World S)
    (rhythmic : s.Rhythmic) : (pollTasks now s w).1.Rhythmic := by
  intro t member ticking
  obtain ⟨t', there, _, _, same⟩ := mem_pollList member
  have period := Paced.period_same.pollList now s.tasks (s.stage w)
  show 0 < (Duty.period (pollList now s.tasks (s.stage w)).2.state).getD 0
  rw [period]
  exact rhythmic t' there (same ▸ ticking)

omit [Work S σ κ] [Paced S σ κ] in
theorem Rhythmic.of_same {s s' : Service S σ κ} (rhythmic : s.Rhythmic)
    (tasks : s'.tasks = s.tasks) (period : Duty.period s'.state = Duty.period s.state) :
    s'.Rhythmic := by
  intro t member ticking
  rw [period]
  exact rhythmic t (tasks ▸ member) ticking

theorem rhythmic_beginFlush (now : Tick) (timeout : Span) {s : Service S σ κ} (w : World S)
    (rhythmic : s.Rhythmic) : (beginFlush now timeout s w).1.Rhythmic := by
  exact rhythmic.of_same (afterCallJob_beside ..).1 (Paced.period_same.beginFlush now timeout)

theorem rhythmic_beginStop (now : Tick) (timeout : Span) {s : Service S σ κ} (w : World S)
    (rhythmic : s.Rhythmic) : (beginStop now timeout s w).1.Rhythmic := by
  unfold beginStop
  split
  · exact rhythmic_beginFlush now timeout w rhythmic
  · intro t member ticking
    obtain ⟨t', there, rfl⟩ := List.mem_map.mp member
    refine rhythmic t' there ?_
    split at ticking <;> exact ticking

theorem rhythmic_pollCall (now : Tick) {s : Service S σ κ} (w : World S) (rhythmic : s.Rhythmic) :
    (pollCall now s w).1.Rhythmic :=
  rhythmic.of_same (pollCall_beside ..).1 (Paced.period_same.pollCall now)

theorem rhythmic_log (r : Record) {s : Service S σ κ} (w : World S) (rhythmic : s.Rhythmic) :
    (log r s w).1.Rhythmic :=
  rhythmic.of_same rfl (Paced.accept_period r (s.stage w))

omit [Work S σ κ] [Paced S σ κ] in
theorem rhythmic_start (inRuntime : Bool) (now : Tick) {s : Service S σ κ}
    (rhythmic : s.Rhythmic) : (start inRuntime now s).2.Rhythmic := by
  unfold start
  split
  · exact rhythmic
  · split
    · exact rhythmic
    · rename_i positive
      split
      · exact rhythmic
      · intro t member ticking
        rcases List.mem_append.mp member with old | new
        · exact rhythmic t old ticking
        · obtain rfl := List.mem_singleton.mp new
          cases period : Duty.period s.state with
          | none => simp [period] at ticking
          | some p =>
            have nonzero : p ≠ 0 := fun zero => positive (by rw [period, zero])
            exact Nat.pos_of_ne_zero nonzero

omit [Work S σ κ] [Paced S σ κ] in
theorem start_call (inRuntime : Bool) (now : Tick) (s : Service S σ κ) :
    (start inRuntime now s).2.call = s.call := by
  unfold start
  split
  · rfl
  · split
    · rfl
    · split <;> rfl

omit [Paced S σ κ] in
theorem beginStop_call (now : Tick) (timeout : Span) (s : Service S σ κ) (w : World S) :
    (beginStop now timeout s w).1.call ≠ none := by
  unfold beginStop
  split
  · exact afterCallJob_some now _ _ s _
  · nofun

omit [Paced S σ κ] in
theorem pollCall_call (now : Tick) {s : Service S σ κ} (w : World S) (calls : s.call ≠ none) :
    (pollCall now s w).1.call ≠ none := by
  unfold pollCall
  split
  · exact calls
  · split
    · exact calls
    · exact calls
    · exact afterCallJob_some now _ _ s _
    · split
      · exact afterCallJob_some now _ _ s _
      · exact afterCallJob_some now _ _ s _

theorem rhythmic_endCall {s : Service S σ κ} (rhythmic : s.Rhythmic) : s.endCall.Rhythmic := by
  unfold endCall
  split
  · exact rhythmic.of_same rfl ((Paced.period_same (S := S)).abandon _ s.state)
  · exact rhythmic

namespace Use

theorem rhythmic_collect (u : Use S σ κ) {p : Service S σ κ × World S}
    (rhythmic : p.1.Rhythmic) : (u.collect p).1.sink.Rhythmic := by
  unfold collect
  split
  · exact rhythmic_endCall rhythmic
  · exact rhythmic

theorem rhythmic_runTask (u : Use S σ κ) (place : Nat) (now : Tick)
    (rhythmic : u.sink.Rhythmic) : (u.runTask place now).sink.Rhythmic := by
  unfold runTask
  split
  · exact rhythmic
  · rename_i t found
    intro t' member ticking
    have period : Duty.period (pollTask now t u.stage).2.state = Duty.period u.sink.state :=
      Paced.period_same.pollTask now t u.stage
    show 0 < (Duty.period (pollTask now t u.stage).2.state).getD 0
    rw [period]
    rcases List.mem_append.mp member with front | back
    · rcases List.mem_append.mp front with before | here
      · exact rhythmic t' (List.mem_of_mem_take before) ticking
      · obtain ⟨_, _, same⟩ := pollTask_same (Option.mem_toList.mp here)
        exact rhythmic t (List.mem_of_getElem? found) (same ▸ ticking)
    · exact rhythmic t' (List.mem_of_mem_drop back) ticking

/-- Whatever is done, tasks with ticks have a period. -/
theorem rhythmic_step (u : Use S σ κ) (a : Action) (rhythmic : u.sink.Rhythmic) :
    (u.step a).1.sink.Rhythmic := by
  cases a with
  | log r => exact rhythmic_log r u.world rhythmic
  | start inRuntime now => exact rhythmic_start inRuntime now rhythmic
  | flush now timeout =>
    exact u.layAside.rhythmic_collect (rhythmic_beginFlush now timeout u.world rhythmic)
  | stop now timeout =>
    exact u.layAside.rhythmic_collect (rhythmic_beginStop now timeout u.world rhythmic)
  | callOn now => exact u.rhythmic_collect (rhythmic_pollCall now u.world rhythmic)
  | drop => exact rhythmic_endCall rhythmic
  | turnTo place =>
    simp only [step, takeUp]
    split <;> exact rhythmic
  | taskOn place now => exact u.rhythmic_runTask place now rhythmic
  | clocks wall steady => exact rhythmic

theorem rhythmic_run (state : σ) (w : World S) (actions : List Action) :
    ((ofState state w).run actions : Use S σ κ).sink.Rhythmic :=
  run_invariant (I := fun u : Use S σ κ => u.sink.Rhythmic) (fun u a => u.rhythmic_step a) actions
    (rhythmic_ofState state)

end Use
end Load

theorem isReached_due [Duty σ κ] (now : Tick) (s : Service S σ κ) :
    isReached now s.due =
      (isReached now s.callDue || s.tasks.any fun t => isReached now (taskDue s.state t)) :=
  isReached_foldl now (taskDue s.state) s.tasks s.callDue

end Service

/-- A sink of which it is known how much is left to be done at a moment. -/
class Settling (S : outParam Type) (α : Type) [Sink S α] where
  Good : α → Prop
  load : Tick → α → Nat
  load_le : ∀ (now : Tick) (a : α), load now a ≤ Sink.rounds a
  /-- The call has something to do, or has to be looked at. -/
  callReady : Tick → α → Prop
  tasksReady : Tick → α → Prop
  ready : ∀ {now : Tick} {a : α}, Good a → isReached now (Sink.due a) = true →
    callReady now a ∨ tasksReady now a
  call_idle : ∀ {now : Tick} {a : α} (w : World S), ¬ callReady now a →
    Sink.pollCall now a w = (a, w)
  call_falls : ∀ {now : Tick} {a : α} (w : World S), Good a → callReady now a →
    load now (Sink.pollCall now a w).1 < load now a
  tasks_le : ∀ (now : Tick) {a : α} (w : World S), Good a →
    load now (Sink.pollTasks now a w).1 ≤ load now a
  tasks_fall : ∀ {now : Tick} {a : α} (w : World S), Good a → tasksReady now a →
    load now (Sink.pollTasks now a w).1 < load now a
  good_pollCall : ∀ (now : Tick) {a : α} (w : World S), Good a → Good (Sink.pollCall now a w).1
  good_pollTasks : ∀ (now : Tick) {a : α} (w : World S), Good a → Good (Sink.pollTasks now a w).1

/-- A sink of which it is known whether it has a call. -/
class Resting (S : outParam Type) (α : Type) [Sink S α] [Settling S α] where
  /-- There is no call. -/
  Free : α → Prop
  free_idle : ∀ {now : Tick} {a : α}, Free a → ¬ Settling.callReady now a
  free_log : ∀ (r : Record) {a : α} (w : World S), Free a → Free (Sink.log r a w).2.1
  free_start : ∀ (inRuntime : Bool) (now : Tick) {a : α}, Free a →
    Free (Sink.start inRuntime now a).2
  free_pollTasks : ∀ (now : Tick) {a : α} (w : World S),
    Free (Sink.pollTasks now a w).1 ↔ Free a
  result_pollTasks : ∀ (now : Tick) (a : α) (w : World S),
    Sink.result? (Sink.pollTasks now a w).1 = Sink.result? a
  busy_beginStop : ∀ (now : Tick) (timeout : Span) (a : α) (w : World S),
    ¬ Free (Sink.beginStop now timeout a w).1
  busy_pollCall : ∀ (now : Tick) {a : α} (w : World S), ¬ Free a → ¬ Free (Sink.pollCall now a w).1
  free_endCall : ∀ a : α, Free (Sink.endCall a)
  endCall_free : ∀ {a : α}, Free a → Sink.endCall a = a
  endCall_le : ∀ (now : Tick) (a : α), Settling.load now (Sink.endCall a) ≤ Settling.load now a
  good_endCall : ∀ {a : α}, Settling.Good a → Settling.Good (Sink.endCall a)

instance {S σ κ : Type} [Duty σ κ] [Work S σ κ] [Service.Paced S σ κ] :
    Settling S (Service S σ κ) where
  Good := Service.Rhythmic
  load := Service.load
  load_le := Service.load_le_rounds
  callReady now s := isReached now s.callDue = true
  tasksReady now s := (s.tasks.any fun t => isReached now (Service.taskDue s.state t)) = true
  ready {now s} _ reached := by
    have parts := (Service.isReached_due now s).symm.trans reached
    simpa using parts
  call_idle {now s} w idle := by
    have fact := Service.pollCall_load now s w
    rwa [if_neg idle] at fact
  call_falls {now s} w _ reached := by
    have fact := Service.pollCall_load now s w
    rwa [if_pos reached] at fact
  tasks_le now s w rhythmic := by
    have fact := Service.pollTasks_load now w rhythmic
    exact Nat.le_trans (Nat.le_add_right _ _) fact
  tasks_fall {now s} w rhythmic reached := by
    have fact := Service.pollTasks_load now w rhythmic
    rw [reached] at fact
    exact fact
  good_pollCall now _ w rhythmic := Service.rhythmic_pollCall now w rhythmic
  good_pollTasks now _ w rhythmic := Service.rhythmic_pollTasks now w rhythmic

instance {S σ κ : Type} [Duty σ κ] [Work S σ κ] [Service.Paced S σ κ] :
    Resting S (Service S σ κ) where
  Free s := s.call = none
  free_idle {now s} free := by
    show ¬ isReached now s.callDue = true
    simp [Service.callDue, free, isReached]
  free_log _ _ _ free := free
  free_start inRuntime now _ free := (Service.start_call inRuntime now _).trans free
  free_pollTasks _ _ _ := Iff.rfl
  result_pollTasks _ _ _ := rfl
  busy_beginStop := Service.beginStop_call
  busy_pollCall := Service.pollCall_call
  free_endCall := Service.endCall_call
  endCall_free := Service.endCall_of_none
  endCall_le := Service.endCall_load
  good_endCall := Service.rhythmic_endCall

/-- Whatever rounds at a moment keep holds when everything is done, and then nothing is
due at that moment any more. -/
theorem Session.settle_spec {S α : Type} [Sink S α] [Settling S α] {I : α → World S → Prop}
    (now : Tick)
    (call : ∀ a w, I a w → I (Sink.pollCall now a w).1 (Sink.pollCall now a w).2)
    (tasks : ∀ a w, I a w → I (Sink.pollTasks now a w).1 (Sink.pollTasks now a w).2)
    {a : α} {w : World S} (good : Settling.Good a) (kept : I a w) :
    let p := settle now (a, w)
    Settling.Good p.1 ∧ I p.1 p.2 ∧ isReached now (Sink.due p.1) = false := by
  have falls (q : α × World S) (holds : Settling.Good q.1 ∧ I q.1 q.2)
      (reached : isReached now (Sink.due q.1) = true) :
      (Settling.Good (round now q).1 ∧ I (round now q).1 (round now q).2) ∧
        Settling.load now (round now q).1 < Settling.load now q.1 := by
    obtain ⟨a, w⟩ := q
    obtain ⟨good, kept⟩ := holds
    have good' := Settling.good_pollCall now w good
    refine ⟨⟨Settling.good_pollTasks now _ good', tasks _ _ (call _ _ kept)⟩, ?_⟩
    have after := Settling.tasks_le now (Sink.pollCall now a w).2 good'
    by_cases ready : Settling.callReady now a
    · exact Nat.lt_of_le_of_lt after (Settling.call_falls w good ready)
    · have tasksReady := (Settling.ready good reached).resolve_left ready
      have same := Settling.call_idle w ready
      have less := Settling.tasks_fall w good tasksReady
      simpa only [round, same] using less
  obtain ⟨⟨good', kept'⟩, quiet⟩ := settleRounds_spec
    (fun q : α × World S => Settling.Good q.1 ∧ I q.1 q.2)
    (fun q => Settling.load now q.1) falls (Sink.rounds a) (q := (a, w)) ⟨good, kept⟩
    (Settling.load_le now a)
  exact ⟨good', kept', quiet⟩

/-- Where a call that has not ended has a next moment, waiting for it gives its result. -/
theorem Session.await_spec {S α : Type} [Sink S α] {I : Tick → α → World S → Prop} {now : Tick}
    {p : α × World S} (start : I now (settle now p).1 (settle now p).2)
    (next : ∀ t a w, I t a w → Sink.result? a = none →
      ∃ t', Sink.due a = some t' ∧ t < t' ∧ t' ≤ Sink.latest now (settle now p).1 (settle now p).2 ∧
        I t' (settle t' (a, w)).1 (settle t' (a, w)).2) :
    ∃ t a w result, I t a w ∧ now ≤ t ∧ Sink.result? a = some result ∧
      await p now = (some result, ⟨Sink.endCall a, w, t⟩) := by
  have next' (t : Tick) (q : α × World S) (kept : I t q.1 q.2)
      (going : (Sink.result? q.1).isSome = false) :
      ∃ t', Sink.due q.1 = some t' ∧ t < t' ∧
        t' ≤ Sink.latest now (settle now p).1 (settle now p).2 ∧
        I t' (settle t' q).1 (settle t' q).2 :=
    next t q.1 q.2 kept (by simpa using going)
  obtain ⟨kept, stopped, order⟩ := runUntil_spec (I := fun t (q : α × World S) => I t q.1 q.2)
    next' start
  obtain ⟨result, ended⟩ := Option.isSome_iff_exists.mp stopped
  refine ⟨_, _, _, result, kept, order, ended, ?_⟩
  rw [← ended]
  rfl

end Telemetry
