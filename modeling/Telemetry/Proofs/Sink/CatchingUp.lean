import Telemetry.Proofs.Sink.Draining
import Telemetry.Proofs.Sink.OnTime

/-! The background task catches up what failed flushes leave.
Where no request fails any more, a job leaves nothing behind. So whatever has failed until
some moment, nothing is left once a task has gone on that had something to do, and until
then the task stays as it is. -/
namespace Telemetry
namespace Service

variable {S σ κ : Type}

section Recovering

variable [Storage S] [Duty σ κ] [Work S σ κ] [Attempting S σ κ]

variable (S) in
/-- A sink whose requests do not fail: nothing is left behind, or a task has something to do by
a moment. -/
structure Recovering (P : S → Prop) (limit : Tick) (s : Service S σ κ) (w : World S) : Prop where
  works : P w.store
  sound : Attempting.Sound S s.state
  untold : ∀ t ∈ s.tasks, t.cancelled = false
  caught : Attempting.Clean S s.state ∨ ∃ t ∈ s.tasks, ∃ d ≤ limit, taskDue s.state t = some d

/-- What a stage becomes where no request fails: nothing is left behind, or the state is as it
was, and so is what goes with it. -/
structure Served (P : S → Prop) (g g' : Stage S σ) (same : Prop) : Prop where
  works : P g'.world.store
  sound : Attempting.Sound S g'.state
  caught : Attempting.Clean S g'.state ∨ g'.state = g.state ∧ same

variable {P : S → Prop} {limit now : Tick} {s s' : Service S σ κ} {w : World S}

theorem served_pollTask (reliable : Storage.Reliable P) (now : Tick) {t : Task κ} {g : Stage S σ}
    (works : P g.world.store) (sound : Attempting.Sound S g.state) (untold : t.cancelled = false) :
    Served P g (pollTask now t g).2 ((pollTask now t g).1 = some t) := by
  have ended (t : Task κ) {p : Progress κ × Stage S σ}
      (done : ∃ result g', p = (.finished result, g') ∧ P g'.world.store ∧
        Attempting.Sound S g'.state ∧ Attempting.Clean S g'.state) (same : Prop) :
      Served P g (afterJob t p).2 same := by
    obtain ⟨result, g', rfl, works, sound, clean⟩ := done
    have state := afterJob_state t (.finished result, g')
    refine ⟨?_, ?_, .inl ?_⟩
    · rwa [afterJob_store]
    · rwa [state]
    · rwa [state]
  have outcome := polled now t g
  generalize pollTask now t g = p at outcome ⊢
  cases outcome with
  | idle => exact ⟨works, sound, .inr ⟨rfl, rfl⟩⟩
  | @resumed job => exact ended t (Attempting.resume_done reliable now job works sound) _
  | @begun picks =>
    have ready : Attempting.Sound S (readied g.state t) := by
      unfold readied
      split
      · exact sound
      · exact (Attempting.notice (S := S) g.state).1 sound
    exact ended _ (Attempting.begin_done reliable now
      (g := { g.picking picks with state := readied g.state t }) works ready) _
  | ended resting told =>
    rw [untold] at told
    cases told

theorem served_pollList (reliable : Storage.Reliable P) (now : Tick) {tasks : List (Task κ)}
    {g : Stage S σ} (works : P g.world.store) (sound : Attempting.Sound S g.state)
    (untold : ∀ t ∈ tasks, t.cancelled = false) :
    Served P g (pollList now tasks g).2 ((pollList now tasks g).1 = tasks) := by
  induction tasks generalizing g with
  | nil => exact ⟨works, sound, .inr ⟨rfl, rfl⟩⟩
  | cons t rest ih =>
    obtain ⟨works', sound', first⟩ :=
      served_pollTask reliable now works sound (untold t List.mem_cons_self)
    obtain ⟨works'', sound'', others⟩ :=
      ih works' sound' fun t member => untold t (List.mem_cons_of_mem _ member)
    refine ⟨works'', sound'', ?_⟩
    rcases others with clean | ⟨state, kept⟩
    · exact .inl clean
    · rcases first with clean | ⟨state', lives⟩
      · exact .inl (state ▸ clean)
      · refine .inr ⟨state.trans state', ?_⟩
        show (pollTask now t g).1.toList ++ (pollList now rest (pollTask now t g).2).1 = t :: rest
        rw [lives, kept]
        rfl

/-- Where nothing is left, or the state and the tasks are as they were, a sink goes on to
recover. -/
theorem Recovering.served (recovering : Recovering S P limit s w) {same : Prop} {g : Stage S σ}
    (served : Served P (s.stage w) g same) (state : s'.state = g.state)
    (untold : ∀ t ∈ s'.tasks, t.cancelled = false) (tasks : same → s.tasks ⊆ s'.tasks) :
    Recovering S P limit s' g.world where
  works := served.works
  sound := state ▸ served.sound
  untold := untold
  caught := by
    rw [state]
    rcases served.caught with clean | ⟨kept, there⟩
    · exact .inl clean
    · have kept : g.state = s.state := kept
      rw [kept]
      exact recovering.caught.imp_right fun ⟨t, member, due⟩ => ⟨t, tasks there member, due⟩

theorem Recovering.pollTasks (reliable : Storage.Reliable P)
    (recovering : Recovering S P limit s w) :
    Recovering S P limit (pollTasks now s w).1 (pollTasks now s w).2 := by
  refine recovering.served (served_pollList reliable now (g := s.stage w)
    recovering.works recovering.sound recovering.untold) rfl (fun t member => ?_) fun same => ?_
  · obtain ⟨t', there, _, cancelled, _⟩ := mem_pollList member
    exact cancelled.trans (recovering.untold t' there)
  · show s.tasks ⊆ (pollList now s.tasks (s.stage w)).1
    rw [same]
    exact List.Subset.refl _

/-- A call whose job ends at once, or has to wait, does not hinder the recovery. -/
theorem Recovering.afterCallJob (recovering : Recovering S P limit s w) (timeout : Span)
    (deadline : Tick) {p : Progress κ × Stage S σ} (served : Served P (s.stage w) p.2 True) :
    Recovering S P limit (afterCallJob now timeout deadline s p).1
      (afterCallJob now timeout deadline s p).2 := by
  have untold := recovering.untold
  obtain ⟨progress, g⟩ := p
  cases progress with
  | finished result => exact recovering.served served rfl untold fun _ _ member => member
  | waiting job =>
    simp only [Service.afterCallJob]
    split
    · refine recovering.served served ?_ untold fun _ _ member => member
      exact Attempting.abandon S job g.state
    · exact recovering.served served rfl untold fun _ _ member => member

theorem Recovering.beginFlush (reliable : Storage.Reliable P)
    (recovering : Recovering S P limit s w) (timeout : Span) :
    Recovering S P limit (beginFlush now timeout s w).1 (beginFlush now timeout s w).2 := by
  obtain ⟨result, g, ran, works, sound, clean⟩ :=
    Attempting.begin_done reliable now (g := s.stage w) recovering.works recovering.sound
  refine recovering.afterCallJob timeout _ ?_
  rw [ran]
  exact ⟨works, sound, .inl clean⟩

theorem Recovering.pollCall (reliable : Storage.Reliable P)
    (recovering : Recovering S P limit s w) :
    Recovering S P limit (pollCall now s w).1 (pollCall now s w).2 := by
  unfold Service.pollCall
  split
  · exact recovering
  · split
    · exact recovering
    · exact recovering
    · exact recovering.beginFlush reliable _
    · split
      · rename_i job timeout deadline _ _
        obtain ⟨result, g, ran, works, sound, clean⟩ :=
          Attempting.resume_done reliable now job (g := s.stage w) recovering.works recovering.sound
        refine recovering.afterCallJob timeout deadline ?_
        rw [ran]
        exact ⟨works, sound, .inl clean⟩
      · exact recovering.afterCallJob _ _ ⟨recovering.works, recovering.sound, .inr ⟨rfl, trivial⟩⟩

theorem Recovering.endCall (recovering : Recovering S P limit s w) :
    Recovering S P limit s.endCall w := by
  have served : Served P (s.stage w) (s.stage w) True :=
    ⟨recovering.works, recovering.sound, .inr ⟨rfl, trivial⟩⟩
  unfold Service.endCall
  split
  · exact recovering.served served (Attempting.abandon S _ s.state) recovering.untold
      fun _ _ member => member
  · exact recovering.served served rfl recovering.untold fun _ _ member => member

theorem Recovering.start (recovering : Recovering S P limit s w) (inRuntime : Bool) :
    Recovering S P limit (start inRuntime now s).2 w := by
  unfold Service.start
  split
  · exact recovering
  · split
    · exact recovering
    · split
      · exact recovering
      · have served : Served P (s.stage w) (s.stage w) True :=
          ⟨recovering.works, recovering.sound, .inr ⟨rfl, trivial⟩⟩
        refine recovering.served served rfl (fun t member => ?_)
          fun _ t member => List.mem_append_left _ member
        rcases List.mem_append.mp member with old | new
        · exact recovering.untold t old
        · rw [List.mem_singleton.mp new]

/-- A sink of which no task has anything to do at the moment by which one had has nothing left
behind. -/
theorem Recovering.clean (recovering : Recovering S P limit s w) {last : Tick}
    (later : limit ≤ last)
    (resting : ∀ t ∈ s.tasks, isReached last (taskDue s.state t) = false) :
    Attempting.Clean S s.state := by
  refine recovering.caught.resolve_right fun ⟨t, member, d, within, due⟩ => ?_
  have reached : isReached last (taskDue s.state t) = true :=
    isReached_iff.mpr ⟨d, due, Nat.le_trans within later⟩
  rw [resting t member] at reached
  cases reached

namespace Use

variable {u : Use S σ κ}

theorem recovering_collect {p : Service S σ κ × World S}
    (recovering : Recovering S P limit p.1 p.2) :
    Recovering S P limit (u.collect p).1.sink (u.collect p).1.world := by
  unfold collect
  split
  · exact recovering.endCall
  · exact recovering

theorem recovering_runTask (reliable : Storage.Reliable P) (place : Nat) (m : Tick)
    (recovering : Recovering S P limit u.sink u.world) :
    Recovering S P limit (u.runTask place m).sink (u.runTask place m).world := by
  unfold runTask
  split
  · exact recovering
  · rename_i t found
    obtain ⟨bound, here⟩ := List.getElem?_eq_some_iff.mp found
    have untold := recovering.untold t (List.mem_of_getElem? found)
    refine recovering.served (served_pollTask reliable m (g := u.stage) recovering.works
      recovering.sound untold) rfl (fun other member => ?_) fun lives => ?_
    · rcases List.mem_append.mp member with front | back
      · rcases List.mem_append.mp front with earlier | there
        · exact recovering.untold other (List.mem_of_mem_take earlier)
        · exact (pollTask_same (Option.mem_toList.mp there)).2.1.trans untold
      · exact recovering.untold other (List.mem_of_mem_drop back)
    · have whole :
          u.sink.tasks.take place ++ [t] ++ u.sink.tasks.drop (place + 1) = u.sink.tasks := by
        rw [← here]
        simp
      show u.sink.tasks ⊆ u.sink.tasks.take place ++ (pollTask m t u.stage).1.toList ++ _
      rw [lives, Option.toList_some, whole]
      exact List.Subset.refl _

/-- Whatever is done that brings no record and is no stop, a sink goes on to recover. -/
theorem recovering_step (reliable : Storage.Reliable P) (a : Action) (noLog : a.isLog = false)
    (noStop : a.isStop = false) (recovering : Recovering S P limit u.sink u.world) :
    Recovering S P limit (u.step a).1.sink (u.step a).1.world := by
  cases a with
  | log r => cases noLog
  | start inRuntime m => exact recovering.start inRuntime
  | flush m timeout =>
    have aside : Recovering S P limit u.layAside.sink u.world := { recovering with }
    exact recovering_collect (aside.beginFlush reliable timeout)
  | stop m timeout => cases noStop
  | callOn m => exact recovering_collect (recovering.pollCall reliable)
  | drop => exact recovering.endCall
  | turnTo place =>
    simp only [step, takeUp]
    split
    · exact recovering
    · exact { recovering with }
  | taskOn place m => exact recovering_runTask reliable place m recovering
  | clocks wall steady => exact { recovering with }

theorem recovering_run (reliable : Storage.Reliable P) {actions : List Action}
    (quiet : ∀ a ∈ actions, a.isLog = false ∧ a.isStop = false)
    (recovering : Recovering S P limit u.sink u.world) :
    Recovering S P limit (u.run actions).sink (u.run actions).world := by
  induction actions generalizing u with
  | nil => exact recovering
  | cons a rest ih =>
    obtain ⟨noLog, noStop⟩ := quiet a List.mem_cons_self
    exact ih (fun b member => quiet b (List.mem_cons_of_mem _ member))
      (recovering_step reliable a noLog noStop recovering)

end Use

/-- A sink with a task that has something to do before long recovers before long. -/
theorem OnTime.recovering [Pausing S σ κ] {period : Tick} {policy : RetryPolicy}
    (onTime : OnTime period policy now s) (started : s.handle.isSome = true) (works : P w.store)
    (sound : Attempting.Sound S s.state) :
    Recovering S P (now + max period policy.longestPause) s w where
  works := works
  sound := sound
  untold t member := (onTime.tasks t member).untold
  caught := by
    obtain ⟨t, member⟩ := List.exists_mem_of_ne_nil _ (onTime.started started)
    obtain ⟨untold, ⟨tick, ticks, near⟩, wake⟩ := onTime.tasks t member
    refine .inr ⟨t, member, ?_⟩
    cases under : t.job with
    | some job =>
      have due : taskDue s.state t = some (Pausing.pause S σ job).wake := by
        simpa [taskDue, under] using Pausing.wake? job s.state
      exact ⟨_, Nat.le_trans (wake job under) (Nat.add_le_add_left (Nat.le_max_right ..) now), due⟩
    | none =>
      have due : taskDue s.state t = some tick := by
        simp [taskDue, jobDue, under, untold, ticks]
      exact ⟨tick, Nat.le_trans near (Nat.add_le_add_left (Nat.le_max_left ..) now), due⟩

end Recovering

section CatchesUp

/-- Where every moment leaves nothing to be done, time passes up to the horizon, and at the
horizon there is nothing to do either. -/
theorem runUntil_passes {τ : Type} (due : τ → Option Tick) (settle : Tick → τ → τ) (horizon : Tick)
    {now : Tick} {I : τ → Prop}
    (settles : ∀ t q, I q → I (settle t q) ∧ isReached t (due (settle t q)) = false) {q : τ}
    (start : I q) (quiet : isReached now (due q) = false) :
    let p := runUntil due settle (fun _ => false) horizon now q
    I p.2 ∧ isReached (max now horizon) (due p.2) = false := by
  fun_induction runUntil due settle (fun _ => false) horizon now q with
  | case1 now q stopped => cases stopped
  | case2 now q going idle => exact ⟨start, by rw [idle]; rfl⟩
  | case3 now q going t next inside ih =>
    obtain ⟨kept, quiet'⟩ := settles t q start
    have passed := ih kept quiet'
    rw [Nat.max_eq_right inside.2] at passed
    rw [Nat.max_eq_right (Nat.le_trans (Nat.le_of_lt inside.1) inside.2)]
    exact passed
  | case4 now q going t next outside =>
    refine ⟨start, ?_⟩
    rw [next] at quiet ⊢
    have later : now < t := by simpa [isReached] using quiet
    have beyond : ¬ t ≤ horizon := fun inside => outside ⟨later, inside⟩
    simpa [isReached, later] using beyond

theorem resting_of_quiet [Duty σ κ] {s : Service S σ κ} {last : Tick}
    (quiet : isReached last s.due = false) :
    ∀ t ∈ s.tasks, isReached last (taskDue s.state t) = false := by
  rw [isReached_due, Bool.or_eq_false_iff, List.any_eq_false] at quiet
  exact fun t member => Bool.eq_false_iff.mpr (quiet.2 t member)

variable [Duty σ κ] [Work S σ κ]

/-- The sink comes to this by itself within a time after a moment: when its tasks were left
to the timer, and whatever else was done meanwhile that brings no record and is no stop, once
no task has anything to do any more. -/
structure CatchesUp (u : Use S σ κ) (now wait : Tick) (Done : Stage S σ → Prop) : Prop where
  by_timer : ∀ ms, wait ≤ ms →
    let session := (Session.calm ⟨u.sink, u.world, now⟩).advance ms
    Done (session.sink.stage session.world)
  by_anyone : ∀ actions : List Action, (∀ a ∈ actions, a.isLog = false ∧ a.isStop = false) →
    ∀ last, now + wait ≤ last →
    (∀ t ∈ (u.run actions).sink.tasks, isReached last (taskDue (u.run actions).state t) = false) →
    Done (u.run actions).stage

theorem CatchesUp.mono {u : Use S σ κ} {now wait wait' : Tick} {Done Done' : Stage S σ → Prop}
    (catches : CatchesUp u now wait Done) (longer : wait ≤ wait')
    (implies : ∀ g, Done g → Done' g) : CatchesUp u now wait' Done' where
  by_timer ms enough := implies _ (catches.by_timer ms (Nat.le_trans longer enough))
  by_anyone actions quiet last enough resting :=
    implies _ (catches.by_anyone actions quiet last
      (Nat.le_trans (Nat.add_le_add_left longer now) enough) resting)

variable [Storage S] [Pausing S σ κ] [Attempting S σ κ] {P : S → Prop} {u : Use S σ κ}
  {now period : Tick} {policy : RetryPolicy}

/-- A started sink whose task has something to do before long catches up where no request
fails any more, and keeps what its jobs keep. -/
theorem OnTime.catchesUp (reliable : Storage.Reliable P) (works : P u.world.store)
    (onTime : OnTime period policy now u.sink) (started : u.sink.handle.isSome = true)
    (sound : Attempting.Sound S u.state) (rhythmic : u.sink.Rhythmic) (live : u.Live)
    {J : Stage S σ → Prop} {Q : Except Fault Unit → Stage S σ → Prop}
    (K : Keeps (fun g _ => J g) (fun g _ => J g) Q) (kept : J u.stage) :
    CatchesUp u now (max period policy.longestPause)
      fun g => Attempting.Clean S g.state ∧ J g := by
  have recovering := onTime.recovering (w := u.world) started works sound
  constructor
  · intro ms enough session
    let I (q : Service S σ κ × World S) : Prop :=
      q.1.Rhythmic ∧ Recovering S P (now + max period policy.longestPause) q.1 q.2 ∧
        J (q.1.stage q.2)
    have settles (t : Tick) (q : Service S σ κ × World S) (holds : I q) :
        I (Session.settle t q) ∧ isReached t (Sink.due (Session.settle t q).1) = false := by
      obtain ⟨rhythmic, recovering, kept⟩ := holds
      obtain ⟨rhythmic', ⟨recovering', kept'⟩, quiet⟩ := Session.settle_spec t
        (I := fun (s : Service S σ κ) w =>
          Recovering S P (now + max period policy.longestPause) s w ∧ J (s.stage w))
        (fun s w holds => ⟨holds.1.pollCall reliable, K.pollCall t holds.2⟩)
        (fun s w holds => ⟨holds.1.pollTasks reliable,
          K.op (nofun : ∀ r, Sink.Op.tasksOn t ≠ .log r) holds.2⟩)
        rhythmic ⟨recovering, kept⟩
      exact ⟨⟨rhythmic', recovering', kept'⟩, quiet⟩
    obtain ⟨calm, quiet⟩ := settles now (u.sink, u.world) ⟨rhythmic, recovering, kept⟩
    obtain ⟨rhythmic', recovering', kept'⟩ := calm
    have clocks : I ((Session.settle now (u.sink, u.world)).1,
        (Session.settle now (u.sink, u.world)).2.advance ms) := by
      refine ⟨rhythmic', { recovering' with }, ?_⟩
      exact @K.surroundings ((Session.settle now (u.sink, u.world)).1.stage
        (Session.settle now (u.sink, u.world)).2) _ [] rfl rfl kept'
    obtain ⟨⟨_, caught, kept''⟩, passed⟩ := runUntil_passes
      (fun q : Service S σ κ × World S => Sink.due q.1) Session.settle (now + ms)
      settles clocks quiet
    refine ⟨caught.clean (Nat.le_trans (Nat.add_le_add_left enough now) (Nat.le_max_right now _))
      fun t member => ?_, kept''⟩
    exact resting_of_quiet passed t member
  · intro actions quiet last enough resting
    have recovering' := Use.recovering_run reliable quiet recovering
    have noRecord (a : Action) (member : a ∈ actions) (r : Record) : a ≠ .log r := by
      rintro rfl
      cases (quiet _ member).1
    exact ⟨recovering'.clean enough resting, (Use.run_without_records K noRecord live kept).1⟩

end CatchesUp
end Service
end Telemetry
