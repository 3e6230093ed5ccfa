import Mathlib.Data.List.Perm.Basic
import Mathlib.Tactic.SplitIfs
import Telemetry.Proofs.Sink.Steps

/-! What all jobs of a sink keep, every use of the sink keeps.
A statement about a stage and the jobs under way is checked once for the start of a
job, for its going on and for its being given up; then it holds after every action
that takes no record in. Jobs may be looked at in any order. -/
namespace Telemetry.Service

variable {S σ κ : Type}

/-- What a job leaves behind after it was run: a result with what comes of it, or one
more job under way. -/
def Continues (I : Stage S σ → List κ → Prop) (Q : Except Fault Unit → Stage S σ → Prop)
    (jobs : List κ) : Progress κ × Stage S σ → Prop
  | (.finished result, g) => Q result g ∧ I g jobs
  | (.waiting job, g) => I g (job :: jobs)

/-- Jobs keep `I`, a result comes with `Q`, and giving a job up leads to `J`. -/
structure Keeps [Duty σ κ] [Work S σ κ] (I J : Stage S σ → List κ → Prop)
    (Q : Except Fault Unit → Stage S σ → Prop) : Prop where
  perm : ∀ {g : Stage S σ} {jobs jobs' : List κ}, jobs.Perm jobs' → I g jobs → I g jobs'
  /-- Clocks, log and reporter say nothing. -/
  surroundings : ∀ {g g' : Stage S σ} {jobs : List κ}, g'.state = g.state →
    g'.world.store = g.world.store → I g jobs → I g' jobs
  notice : ∀ {g : Stage S σ} {jobs : List κ}, I g jobs →
    I { g with state := Duty.takeNotice g.state } jobs
  begin : ∀ {g : Stage S σ} {jobs : List κ} (now : Tick), I g jobs →
    Continues I Q jobs (Work.begin now g)
  resume : ∀ {g : Stage S σ} {job : κ} {jobs : List κ} (now : Tick), I g (job :: jobs) →
    isReached now (Duty.wake? job g.state) = true → Continues I Q jobs (Work.resume now job g)
  abandon : ∀ {g : Stage S σ} {job : κ} {jobs : List κ}, I g (job :: jobs) →
    J { g with state := Duty.abandon job g.state } jobs

/-- What a job that has ended says with its result. -/
def Tells (R : Except Fault Unit → Stage S σ → Prop) : Progress κ × Stage S σ → Prop
  | (.finished result, g) => R result g
  | (.waiting _, _) => True

theorem Continues.tells {I : Stage S σ → List κ → Prop} {Q R : Except Fault Unit → Stage S σ → Prop}
    {jobs : List κ} {p : Progress κ × Stage S σ} (continues : Continues I Q jobs p)
    (told : Tells R p) : Continues I (fun result g => Q result g ∧ R result g) jobs p := by
  obtain ⟨progress, g⟩ := p
  cases progress with
  | waiting job => exact continues
  | finished result =>
    obtain ⟨given, kept⟩ := continues
    exact ⟨⟨given, told⟩, kept⟩

/-- What all jobs say with their results comes with what they keep. -/
theorem Keeps.tells [Duty σ κ] [Work S σ κ] {I J : Stage S σ → List κ → Prop}
    {Q R : Except Fault Unit → Stage S σ → Prop} (K : Keeps I J Q)
    (begin : ∀ {g : Stage S σ} {jobs : List κ} (now : Tick), I g jobs → Tells R (Work.begin now g))
    (resume : ∀ {g : Stage S σ} {job : κ} {jobs : List κ} (now : Tick), I g (job :: jobs) →
      Tells R (Work.resume now job g)) :
    Keeps I J (fun result g => Q result g ∧ R result g) where
  perm := K.perm
  surroundings := K.surroundings
  notice := K.notice
  begin now kept := (K.begin now kept).tells (begin now kept)
  resume now kept reached := (K.resume now kept reached).tells (resume now kept)
  abandon := K.abandon

/-- What holds after an action: `I`, unless the action gave a job up. -/
def Follows (I J : Stage S σ → List κ → Prop) (Q : Except Fault Unit → Stage S σ → Prop)
    (p : Use S σ κ × Option Ending) : Prop :=
  match p.2 with
  | none => I p.1.stage p.1.jobs
  | some (.returned result) =>
    (Q result p.1.stage ∧ I p.1.stage p.1.jobs) ∨
      ((∃ timeout, result = .error (.timeout timeout)) ∧ J p.1.stage p.1.jobs)
  | some .dropped => J p.1.stage p.1.jobs

/-- Where a job that is given up keeps `I` too, every action does. -/
theorem Follows.kept {I : Stage S σ → List κ → Prop} {Q : Except Fault Unit → Stage S σ → Prop}
    {p : Use S σ κ × Option Ending} (follows : Follows I I Q p) : I p.1.stage p.1.jobs := by
  unfold Follows at follows
  split at follows
  · exact follows
  · exact follows.elim (·.2) (·.2)
  · exact follows

/-- Where results of jobs are no timeouts, the ending tells whether a job was given up. -/
theorem Follows.by_ending {I J : Stage S σ → List κ → Prop}
    {Q : Except Fault Unit → Stage S σ → Prop} {p : Use S σ κ × Option Ending}
    (noTimeout : ∀ result g, Q result g → ∀ timeout, result ≠ .error (.timeout timeout))
    (follows : Follows I J Q p) :
    if p.2.toList.any Ending.isAbandoned then J p.1.stage p.1.jobs else I p.1.stage p.1.jobs := by
  obtain ⟨u, ending⟩ := p
  cases ending with
  | none => exact follows
  | some ending =>
    cases ending with
    | dropped => exact follows
    | returned result =>
      obtain ⟨given, kept⟩ | ⟨⟨timeout, rfl⟩, abandoned⟩ := follows
      · have finished : Ending.isAbandoned (.returned result) = false := by
          unfold Ending.isAbandoned
          split
          · rename_i same
            cases same
          · rename_i timeout same
            cases same
            exact absurd rfl (noTimeout _ _ given timeout)
          · rfl
        simpa [finished] using kept
      · exact abandoned

namespace Use

theorem jobs_takeUp (u : Use S σ κ) (place : Nat) : u.jobs.Perm (u.takeUp place).jobs := by
  unfold takeUp
  cases found : u.calls[place]? with
  | none => exact .refl _
  | some call =>
    obtain ⟨bound, rfl⟩ := List.getElem?_eq_some_iff.mp found
    exact .append_left _ ((List.getElem_cons_eraseIdx_perm bound).symm.filterMap _)

variable [Duty σ κ] [Work S σ κ]

/-- No call that has ended is left lying about. -/
def Live (u : Use S σ κ) : Prop :=
  ∀ result, Call.ended result ∉ u.calls

theorem stage_log (u : Use S σ κ) (r : Record) :
    (u.step (.log r)).1.stage = Work.accept r u.stage := rfl

theorem jobs_log (u : Use S σ κ) (r : Record) : (u.step (.log r)).1.jobs = u.jobs := rfl

theorem ending_log (u : Use S σ κ) (r : Record) : (u.step (.log r)).2 = none := rfl

theorem stage_start (u : Use S σ κ) (inRuntime : Bool) (now : Tick) :
    (u.step (.start inRuntime now)).1.stage = u.stage := by
  simp only [step, Service.start]
  split_ifs <;> rfl

theorem jobs_start (u : Use S σ κ) (inRuntime : Bool) (now : Tick) :
    (u.step (.start inRuntime now)).1.jobs = u.jobs := by
  simp only [step, Service.start]
  split_ifs
  · rfl
  · rfl
  · rfl
  · simp [jobs, calls]

end Use

section Keeps

variable [Duty σ κ] [Work S σ κ] {I J : Stage S σ → List κ → Prop}
  {Q : Except Fault Unit → Stage S σ → Prop}

theorem Keeps.report (K : Keeps I J Q) {g : Stage S σ} {jobs : List κ}
    (sink operation error : String) (kept : I g jobs) : I (g.report sink operation error) jobs :=
  K.surroundings (g := g) rfl (g.report_store sink operation error) kept

theorem Keeps.readied (K : Keeps I J Q) (t : Task κ) {g : Stage S σ} {jobs : List κ}
    (kept : I g jobs) : I { g with state := readied g.state t } jobs := by
  unfold Service.readied
  split_ifs
  · exact kept
  · exact K.notice kept

theorem Keeps.afterJob (K : Keeps I J Q) {t : Task κ} {p : Progress κ × Stage S σ} {jobs : List κ}
    (continues : Continues I Q jobs p) :
    I (afterJob t p).2 ((afterJob t p).1.toList.filterMap Task.job ++ jobs) := by
  obtain ⟨progress, g⟩ := p
  cases progress with
  | waiting job => exact continues
  | finished result =>
    have idle : (if t.tick.isSome then some { t with job := none } else none).toList.filterMap
        Task.job = ([] : List κ) := by
      split <;> rfl
    cases result with
    | ok _ =>
      simp only [Service.afterJob, idle]
      exact continues.2
    | error fault =>
      simp only [Service.afterJob, idle]
      exact K.report _ _ _ continues.2

/-- A task goes on, and the other jobs stay as they are. -/
theorem Keeps.pollTask (K : Keeps I J Q) {t : Task κ} {g : Stage S σ} {jobs : List κ} (now : Tick)
    (kept : I g (t.job.toList ++ jobs)) :
    I (pollTask now t g).2 ((pollTask now t g).1.toList.filterMap Task.job ++ jobs) := by
  have outcome := polled now t g
  generalize Service.pollTask now t g = p at outcome ⊢
  cases outcome with
  | idle =>
    cases under : t.job with
    | some job => simpa [under] using kept
    | none => simpa [under] using kept
  | resumed underWay woken =>
    rw [underWay] at kept
    exact K.afterJob (K.resume now kept woken)
  | @begun picks resting =>
    rw [resting] at kept
    have picked : I (g.picking picks) jobs := K.surroundings (g := g) rfl rfl kept
    exact K.afterJob (K.begin now (K.readied t picked))
  | @ended picks resting =>
    rw [resting] at kept
    have picked : I (g.picking picks) jobs := K.surroundings (g := g) rfl rfl kept
    exact picked

/-- A call that was run has ended with the result of its job, is at work, or has ended
at its deadline. -/
theorem Keeps.collect_afterCallJob (K : Keeps I J Q) {u : Use S σ κ} {s : Service S σ κ}
    {p : Progress κ × Stage S σ} (now : Tick) (timeout : Span) (deadline : Tick)
    (continues : Continues I Q
      (s.tasks.filterMap Task.job ++ u.aside.filterMap Call.job?) p) :
    Follows I J Q (u.collect (afterCallJob now timeout deadline s p)) := by
  obtain ⟨progress, g⟩ := p
  cases progress with
  | finished result => exact .inl continues
  | waiting job =>
    simp only [afterCallJob]
    split_ifs with late
    · exact .inr ⟨⟨timeout, rfl⟩, K.abandon continues⟩
    · exact K.perm List.perm_middle.symm continues

theorem Keeps.collect_beginFlush (K : Keeps I J Q) {u : Use S σ κ} {s : Service S σ κ}
    {w : World S} (now : Tick) (timeout : Span)
    (kept : I (s.stage w) (s.tasks.filterMap Task.job ++ u.aside.filterMap Call.job?)) :
    Follows I J Q (u.collect (beginFlush now timeout s w)) :=
  K.collect_afterCallJob now timeout _ (K.begin now kept)

omit [Duty σ κ] [Work S σ κ] in
theorem filterMap_job_told (id : Nat) (tasks : List (Task κ)) :
    (tasks.map fun t => if t.id == id then { t with cancelled := true } else t).filterMap Task.job =
      tasks.filterMap Task.job := by
  rw [List.filterMap_map]
  congr 1
  funext t
  simp only [Function.comp_apply]
  split <;> rfl

/-- A stop waits for its task, which is told to end and keeps its job. -/
theorem Keeps.collect_beginStop (K : Keeps I J Q) {u : Use S σ κ} {s : Service S σ κ}
    {w : World S} (now : Tick) (timeout : Span)
    (kept : I (s.stage w) (s.tasks.filterMap Task.job ++ u.aside.filterMap Call.job?)) :
    Follows I J Q (u.collect (beginStop now timeout s w)) := by
  unfold beginStop
  cases s.handle with
  | none => exact K.collect_beginFlush now timeout kept
  | some id =>
    show I (s.stage w) (List.filterMap Task.job (s.tasks.map _) ++ u.aside.filterMap Call.job?)
    rw [filterMap_job_told]
    exact kept

omit [Work S σ κ] in
theorem Keeps.collect_idle {u : Use S σ κ} (running : u.sink.result? = none)
    (kept : I u.stage u.jobs) : Follows I J Q (u.collect (u.sink, u.world)) := by
  simp only [Use.collect, running]
  exact kept

theorem Keeps.inHand (K : Keeps I J Q) {u : Use S σ κ} {call : Call κ}
    (inHand : u.sink.call = some call) (kept : I u.stage u.jobs) :
    I u.stage (call.job?.toList ++
      (u.sink.tasks.filterMap Task.job ++ u.aside.filterMap Call.job?)) := by
  have jobs : u.jobs = u.sink.tasks.filterMap Task.job ++
      (call.job?.toList ++ u.aside.filterMap Call.job?) := by
    cases call <;> simp [Use.jobs, Use.calls, inHand, List.filterMap_cons, Call.job?]
  rw [jobs] at kept
  refine K.perm ?_ kept
  rw [← List.append_assoc, ← List.append_assoc]
  exact List.perm_append_comm.append_right _

theorem Keeps.collect_pollCall (K : Keeps I J Q) {u : Use S σ κ} (now : Tick) (live : u.Live)
    (kept : I u.stage u.jobs) : Follows I J Q (u.collect (pollCall now u.sink u.world)) := by
  unfold pollCall
  cases inHand : u.sink.call with
  | none =>
    have running : u.sink.result? = none := by simp [result?, inHand]
    simp only [ite_self]
    exact collect_idle running kept
  | some call =>
    have here := K.inHand inHand kept
    cases call with
    | ended result => exact absurd (by simp [Use.calls, inHand]) (live result)
    | joining task timeout =>
      have running : u.sink.result? = none := by simp [result?, inHand]
      split_ifs
      · exact collect_idle running kept
      · exact K.collect_beginFlush now timeout here
    | working job timeout deadline =>
      have running : u.sink.result? = none := by simp [result?, inHand]
      split_ifs with resting
      · exact collect_idle running kept
      · simp only
        split_ifs with woken
        · exact K.collect_afterCallJob now timeout deadline (K.resume now here woken)
        · exact K.collect_afterCallJob now timeout deadline here

theorem Keeps.dropCall (K : Keeps I J Q) {u : Use S σ κ} (live : u.Live)
    (kept : I u.stage u.jobs) : Follows I J Q u.dropCall := by
  cases inHand : u.sink.call with
  | none =>
    have same : u.dropCall = (u, none) := by
      obtain ⟨⟨_, _, _, _, _, call⟩, _, _⟩ := u
      cases inHand
      rfl
    rw [same]
    exact kept
  | some call =>
    have here := K.inHand inHand kept
    simp only [Use.dropCall, endCall, inHand]
    cases call with
    | ended result => exact absurd (by simp [Use.calls, inHand]) (live result)
    | joining task timeout => exact here
    | working job timeout deadline => exact K.abandon here

theorem Keeps.takeUp (K : Keeps I J Q) {u : Use S σ κ} (place : Nat)
    (kept : I u.stage u.jobs) : I (u.takeUp place).stage (u.takeUp place).jobs := by
  have stage : (u.takeUp place).stage = u.stage := by
    unfold Use.takeUp
    split <;> rfl
  rw [stage]
  exact K.perm (u.jobs_takeUp place) kept

theorem Keeps.runTask (K : Keeps I J Q) {u : Use S σ κ} (place : Nat) (now : Tick)
    (kept : I u.stage u.jobs) : I (u.runTask place now).stage (u.runTask place now).jobs := by
  unfold Use.runTask
  cases found : u.sink.tasks[place]? with
  | none => exact kept
  | some t =>
    obtain ⟨bound, rfl⟩ := List.getElem?_eq_some_iff.mp found
    let others := (u.sink.tasks.take place).filterMap Task.job ++
      ((u.sink.tasks.drop (place + 1)).filterMap Task.job ++ u.calls.filterMap Call.job?)
    have around (middle : List (Task κ)) :
        ((u.sink.tasks.take place ++ middle ++ u.sink.tasks.drop (place + 1)).filterMap Task.job ++
          u.calls.filterMap Call.job?).Perm (middle.filterMap Task.job ++ others) := by
      simp only [others, List.filterMap_append, List.append_assoc]
      rw [← List.append_assoc, ← List.append_assoc (middle.filterMap Task.job)]
      exact List.perm_append_comm.append_right _
    have before : u.jobs = (u.sink.tasks.take place ++ [u.sink.tasks[place]] ++
        u.sink.tasks.drop (place + 1)).filterMap Task.job ++ u.calls.filterMap Call.job? := by
      simp [Use.jobs]
    rw [before] at kept
    have single : [u.sink.tasks[place]].filterMap Task.job = u.sink.tasks[place].job.toList := by
      cases h : u.sink.tasks[place].job <;> simp [h]
    have here := K.perm (around _) kept
    rw [single] at here
    exact K.perm (around _).symm (K.pollTask now here)

/-- Every action that takes no record in keeps what jobs keep. -/
theorem Keeps.step (K : Keeps I J Q) {u : Use S σ κ} {a : Action} (live : u.Live)
    (noRecord : ∀ r, a ≠ .log r) (kept : I u.stage u.jobs) : Follows I J Q (u.step a) := by
  cases a with
  | log r => exact absurd rfl (noRecord r)
  | start inRuntime now =>
    have after : I (u.step (.start inRuntime now)).1.stage
        (u.step (.start inRuntime now)).1.jobs := by
      rw [Use.stage_start, Use.jobs_start]
      exact kept
    exact after
  | flush now timeout => exact K.collect_beginFlush now timeout kept
  | stop now timeout => exact K.collect_beginStop now timeout kept
  | callOn now => exact K.collect_pollCall now live kept
  | drop => exact K.dropCall live kept
  | turnTo place => exact K.takeUp place kept
  | taskOn place now => exact K.runTask place now kept
  | clocks wall steady =>
    have after : I (u.step (.clocks wall steady)).1.stage u.jobs := by
      refine K.surroundings ?_ ?_ kept <;> rfl
    exact after

theorem Keeps.returned (K : Keeps I J Q) {u : Use S σ κ} {a : Action} (live : u.Live)
    (kept : I u.stage u.jobs) {result : Except Fault Unit}
    (returned : (u.step a).2 = some (.returned result)) :
    (Q result (u.step a).1.stage ∧ I (u.step a).1.stage (u.step a).1.jobs) ∨
      ((∃ timeout, result = .error (.timeout timeout)) ∧
        J (u.step a).1.stage (u.step a).1.jobs) := by
  have noRecord (r : Record) : a ≠ .log r := by
    rintro rfl
    cases returned
  have follows := K.step live noRecord kept
  simpa only [Follows, returned] using follows

end Keeps

/-- What every attempt keeps, attempts in a row keep, up to their result or a pause. -/
theorem continues_attempts {I : Stage S σ → List Pause → Prop}
    {Q : Except Fault Unit → Stage S σ → Prop} {jobs : List Pause}
    {attempt : Stage S σ → Except Fault Unit × Stage S σ} (policy : RetryPolicy) (now : Tick)
    (keeps : ∀ g, I g jobs → Q (attempt g).1 (attempt g).2 ∧ I (attempt g).2 jobs)
    (waits : ∀ g pause, I g jobs → I g (pause :: jobs)) (left retries : Nat) {g : Stage S σ}
    (kept : I g jobs) :
    Continues I Q jobs (attempts policy now attempt left retries g) := by
  induction left generalizing retries g with
  | zero =>
    have after := keeps g kept
    unfold attempts
    split
    · rename_i ended
      simpa only [Continues, ended] using after
    · rename_i ended
      rw [ended] at after
      split <;> exact after
  | succ left ih =>
    have after := keeps g kept
    unfold attempts
    split
    · rename_i ended
      simpa only [Continues, ended] using after
    · rename_i ended
      rw [ended] at after
      simp only
      split_ifs
      · exact ih _ after.2
      · exact waits _ _ after.2
      · exact after

section Runs

variable [Duty σ κ] [Work S σ κ] {Q : Except Fault Unit → Stage S σ → Prop}

omit [Work S σ κ] in
theorem Use.live_collect (u : Use S σ κ) (p : Service S σ κ × World S)
    (aside : ∀ result, Call.ended result ∉ u.aside) : (u.collect p).1.Live := by
  intro result
  have none_ended : p.1.endCall.call = none := by
    unfold endCall
    split <;> rfl
  unfold collect
  split
  · simpa [calls, none_ended] using aside result
  · rename_i running
    intro member
    rcases List.mem_append.mp member with inHand | rest
    · have call : p.1.call = some (.ended result) := by simpa using inHand
      simp [result?, call] at running
    · exact aside result rest

/-- No action leaves a call behind that has ended. -/
theorem Use.live_step (u : Use S σ κ) (a : Action) (live : u.Live) : (u.step a).1.Live := by
  have aside : ∀ result, Call.ended result ∉ u.aside := fun result member =>
    live result (List.mem_append_right _ member)
  cases a with
  | log r => exact live
  | start inRuntime now =>
    have same : (u.step (.start inRuntime now)).1.calls = u.calls := by
      simp only [step, Service.start]
      split_ifs <;> rfl
    simpa only [Live, same] using live
  | flush now timeout => exact u.layAside.live_collect _ live
  | stop now timeout => exact u.layAside.live_collect _ live
  | callOn now => exact u.live_collect _ aside
  | drop =>
    have gone : u.sink.endCall.call = none := by
      unfold endCall
      split <;> rfl
    intro result
    simpa [step, dropCall, calls, gone] using aside result
  | turnTo place =>
    simp only [step, takeUp]
    cases found : u.calls[place]? with
    | none => exact live
    | some call =>
      intro result member
      rcases List.mem_append.mp member with inHand | rest
      · have same : call = .ended result := by simpa [eq_comm] using inHand
        exact live result (same ▸ List.mem_of_getElem? found)
      · exact live result (List.mem_of_mem_eraseIdx rest)
  | taskOn place now =>
    simp only [step, runTask]
    split
    · exact live
    · exact live
  | clocks wall steady => exact live

/-- What jobs keep holds after every run in which no record is taken in. -/
theorem Use.run_without_records {I : Stage S σ → List κ → Prop} (K : Keeps I I Q)
    {actions : List Action} (noRecord : ∀ a ∈ actions, ∀ r, a ≠ .log r) {u : Use S σ κ}
    (live : u.Live) (kept : I u.stage u.jobs) :
    I (u.run actions).stage (u.run actions).jobs ∧ (u.run actions).Live := by
  induction actions generalizing u with
  | nil => exact ⟨kept, live⟩
  | cons a rest ih =>
    have next := (K.step live (noRecord a List.mem_cons_self) kept).kept
    exact ih (fun b member => noRecord b (List.mem_cons_of_mem _ member)) (u.live_step a live) next

/-- What jobs keep and records too holds after every run. -/
theorem Use.run_with_records {I : Stage S σ → List κ → Prop} (K : Keeps I I Q)
    (record : ∀ g jobs r, I g jobs → I (Work.accept r g) jobs) (actions : List Action)
    {u : Use S σ κ} (live : u.Live) (kept : I u.stage u.jobs) :
    I (u.run actions).stage (u.run actions).jobs ∧ (u.run actions).Live := by
  induction actions generalizing u with
  | nil => exact ⟨kept, live⟩
  | cons a rest ih =>
    apply ih (u.live_step a live)
    obtain ⟨r, rfl⟩ | noRecord := record_or_not a
    · exact record u.stage u.jobs r kept
    · exact (K.step live noRecord kept).kept

omit [Duty σ κ] [Work S σ κ] in
theorem Use.live_ofState (s : σ) (w : World S) : (ofState s w : Use S σ κ).Live := by
  simp [Live, ofState, Service.ofState, calls]

/-- What jobs keep and records are entered into holds after every run, with all that
was seen on the way. -/
theorem Use.run_of_keeps {β : Type} {see : Use S σ κ → Record → List β}
    {I : List β → Stage S σ → List κ → Prop} (K : ∀ h, Keeps (I h) (I h) Q)
    (record : ∀ h u r, I h u.stage u.jobs → I (h ++ see u r) (Work.accept r u.stage) u.jobs)
    {s : σ} {w : World S} (start : I [] ⟨s, .standard, w⟩ []) (actions : List Action) :
    I ((ofState s w).seen (atRecords see) actions) ((ofState s w).run actions).stage
        ((ofState s w).run actions).jobs ∧
      ((ofState s w).run actions).Live := by
  have step_keeps (h : List β) (u : Use S σ κ) (a : Action)
      (kept : I h u.stage u.jobs ∧ u.Live) :
      I (h ++ atRecords see u a) (u.step a).1.stage (u.step a).1.jobs ∧ (u.step a).1.Live := by
    refine ⟨?_, u.live_step a kept.2⟩
    cases a with
    | log r => exact record h u r kept.1
    | _ =>
      simp only [atRecords, List.append_nil]
      exact ((K h).step kept.2 (fun _ same => by cases same) kept.1).kept
  simpa using run_keeps step_keeps actions ⟨start, live_ofState s w⟩

end Runs
end Telemetry.Service
