import Mathlib.Tactic.SplitIfs
import Telemetry.Proofs.Sink.Use

/-! What the steps of a sink can do.
A task that is looked at has nothing to do, goes on with its job, begins one or ends; a call
whose job was run has ended or works on. Each step is taken apart here once, and whatever no
job touches stays as it is in all of them. -/
namespace Telemetry

variable {S σ κ α : Type}

namespace World

variable {w : World S}

theorem picks_of_picked (picked : w.picks.headD false = true) :
    w.picks = true :: w.picks.tail := by
  cases ahead : w.picks with
  | nil => simp [ahead] at picked
  | cons first rest => simp_all

theorem count_tail_of_not_picked (picked : ¬ w.picks.headD false = true) :
    w.picks.tail.count true = w.further := by
  unfold further
  cases ahead : w.picks with
  | nil => rfl
  | cons first rest => simp_all

end World

namespace Stage

/-- The stage with other picks of the scheduler ahead. -/
def picking (g : Stage S σ) (picks : List Bool) : Stage S σ :=
  { g with world := { g.world with picks := picks } }

theorem report_store (g : Stage S σ) (sink operation error : String) :
    (g.report sink operation error).world.store = g.world.store := by
  simp only [report, World.report]
  split <;> rfl

theorem report_picks (g : Stage S σ) (sink operation error : String) :
    (g.report sink operation error).world.picks = g.world.picks := by
  simp only [report, World.report]
  split <;> rfl

end Stage

namespace Service

section Tasks

variable [Duty σ κ]

/-- A job that was run adds no more than a report. -/
theorem afterJob_part (part : Stage S σ → α)
    (report : ∀ g sink operation error, part (g.report sink operation error) = part g)
    (t : Task κ) (p : Progress κ × Stage S σ) : part (afterJob t p).2 = part p.2 := by
  obtain ⟨progress, g⟩ := p
  cases progress with
  | waiting job => rfl
  | finished result =>
    cases result with
    | ok _ => rfl
    | error fault => exact report g _ _ _

theorem afterJob_state (t : Task κ) (p : Progress κ × Stage S σ) :
    (afterJob t p).2.state = p.2.state :=
  afterJob_part Stage.state (fun _ _ _ _ => rfl) t p

theorem afterJob_store (t : Task κ) (p : Progress κ × Stage S σ) :
    (afterJob t p).2.world.store = p.2.world.store :=
  afterJob_part (fun g => g.world.store) Stage.report_store t p

theorem afterJob_picks (t : Task κ) (p : Progress κ × Stage S σ) :
    (afterJob t p).2.world.picks = p.2.world.picks :=
  afterJob_part (fun g => g.world.picks) Stage.report_picks t p

/-- A task that goes on after its job was run differs in its job only, and one that then rests
has ticks. -/
theorem afterJob_lives {t t' : Task κ} {p : Progress κ × Stage S σ}
    (lives : (afterJob t p).1 = some t') :
    ∃ job, t' = { t with job := job } ∧ (job = none → t.tick.isSome = true) := by
  obtain ⟨progress, g⟩ := p
  cases progress with
  | waiting job =>
    cases lives
    exact ⟨some job, rfl, nofun⟩
  | finished result =>
    simp only [afterJob] at lives
    split at lives
    · rename_i ticking
      cases lives
      exact ⟨none, rfl, fun _ => ticking⟩
    · cases lives

variable [Work S σ κ]

/-- What looking at a task comes to. A task that was told to end begins a job only where
the scheduler picks that. -/
inductive Polled (now : Tick) (t : Task κ) (g : Stage S σ) :
    Option (Task κ) × Stage S σ → Prop
  | idle (early : isReached now (taskDue g.state t) = false) : Polled now t g (some t, g)
  | resumed {job : κ} (underWay : t.job = some job)
      (woken : isReached now (Duty.wake? job g.state) = true) :
      Polled now t g (afterJob t (Work.resume now job g))
  | begun {picks : List Bool} (resting : t.job = none)
      (due : isReached now (jobDue g.state t) = true)
      (picked : g.world.picks = if t.cancelled then true :: picks else picks) :
      Polled now t g (beginJob now t (g.picking picks))
  | ended {picks : List Bool} (resting : t.job = none) (told : t.cancelled = true)
      (left : picks.count true = g.world.further) : Polled now t g (none, g.picking picks)

theorem polled_endTask (now : Tick) {t : Task κ} {g : Stage S σ} (resting : t.job = none)
    (told : t.cancelled = true) : Polled now t g (endTask now t g) := by
  unfold endTask
  split_ifs with due
  · show Polled now t g (if g.world.picks.headD false then
      beginJob now t (g.picking g.world.picks.tail) else (none, g.picking g.world.picks.tail))
    split_ifs with picked
    · exact .begun resting due (by rw [told, if_pos rfl]; exact World.picks_of_picked picked)
    · exact .ended resting told (World.count_tail_of_not_picked picked)
  · show Polled now t g (none, g.picking g.world.picks)
    exact .ended resting told rfl

theorem polled (now : Tick) (t : Task κ) (g : Stage S σ) : Polled now t g (pollTask now t g) := by
  unfold pollTask
  split
  · rename_i early
    exact .idle (by simpa using early)
  · rename_i late
    have reached : isReached now (taskDue g.state t) = true := by simpa using late
    cases job : t.job with
    | some job => exact .resumed job (by simpa [taskDue, job] using reached)
    | none =>
      cases told : t.cancelled with
      | false =>
        have due : isReached now (jobDue g.state t) = true := by
          simpa [taskDue, job, told] using reached
        exact .begun job due (by simp [told])
      | true => exact polled_endTask now job told

/-- A task that goes on keeps its id, whether it was told to end, and that it has ticks. -/
theorem pollTask_same {now : Tick} {t t' : Task κ} {g : Stage S σ}
    (lives : (pollTask now t g).1 = some t') :
    t'.id = t.id ∧ t'.cancelled = t.cancelled ∧ t'.tick.isSome = t.tick.isSome := by
  have outcome := polled now t g
  generalize pollTask now t g = p at outcome lives
  cases outcome with
  | idle =>
    cases lives
    exact ⟨rfl, rfl, rfl⟩
  | resumed =>
    obtain ⟨job, rfl, _⟩ := afterJob_lives lives
    exact ⟨rfl, rfl, rfl⟩
  | begun =>
    obtain ⟨job, rfl, _⟩ := afterJob_lives lives
    exact ⟨rfl, rfl, by simp [Task.next]⟩
  | ended => cases lives

theorem mem_pollList {now : Tick} {tasks : List (Task κ)} {g : Stage S σ} {t' : Task κ}
    (member : t' ∈ (pollList now tasks g).1) :
    ∃ t ∈ tasks, t'.id = t.id ∧ t'.cancelled = t.cancelled ∧ t'.tick.isSome = t.tick.isSome := by
  induction tasks generalizing g with
  | nil => cases member
  | cons t rest ih =>
    rcases List.mem_append.mp member with here | later
    · exact ⟨t, List.mem_cons_self, pollTask_same (Option.mem_toList.mp here)⟩
    · obtain ⟨s, there, same⟩ := ih later
      exact ⟨s, List.mem_cons_of_mem _ there, same⟩

end Tasks

section Calls

variable [Duty σ κ]

/-- A call whose job was run has ended or is still at work under its deadline. Apart from it
there is what the job left, or what is left when the job is given up. -/
theorem afterCallJob_spec (now : Tick) (timeout : Span) (deadline : Tick) (s : Service S σ κ)
    (p : Progress κ × Stage S σ) :
    ∃ call g, afterCallJob now timeout deadline s p = { s with call := some call }.putStage g ∧
      ((∃ result, call = .ended result) ∨ ∃ job, call = .working job timeout deadline) ∧
      (g = p.2 ∨ ∃ job, g = { p.2 with state := Duty.abandon job p.2.state }) := by
  obtain ⟨progress, g⟩ := p
  cases progress with
  | finished result => exact ⟨_, g, rfl, .inl ⟨result, rfl⟩, .inl rfl⟩
  | waiting job =>
    simp only [afterCallJob]
    split_ifs
    · exact ⟨_, _, rfl, .inl ⟨_, rfl⟩, .inr ⟨job, rfl⟩⟩
    · exact ⟨_, g, rfl, .inr ⟨job, rfl⟩, .inl rfl⟩

theorem afterCallJob_beside (now : Tick) (timeout : Span) (deadline : Tick) (s : Service S σ κ)
    (p : Progress κ × Stage S σ) :
    (afterCallJob now timeout deadline s p).1.tasks = s.tasks ∧
      (afterCallJob now timeout deadline s p).1.handle = s.handle := by
  obtain ⟨call, g, ran, _⟩ := afterCallJob_spec now timeout deadline s p
  rw [ran]
  exact ⟨rfl, rfl⟩

theorem afterCallJob_call (now : Tick) (timeout : Span) (deadline : Tick) (s : Service S σ κ)
    (p : Progress κ × Stage S σ) :
    (∃ result, (afterCallJob now timeout deadline s p).1.call = some (.ended result)) ∨
      ∃ job, (afterCallJob now timeout deadline s p).1.call =
        some (.working job timeout deadline) := by
  obtain ⟨call, g, ran, becomes, _⟩ := afterCallJob_spec now timeout deadline s p
  rw [ran]
  exact becomes.imp (.imp fun _ => congrArg some) (.imp fun _ => congrArg some)

theorem afterCallJob_some (now : Tick) (timeout : Span) (deadline : Tick) (s : Service S σ κ)
    (p : Progress κ × Stage S σ) : (afterCallJob now timeout deadline s p).1.call ≠ none := by
  obtain ⟨_, call⟩ | ⟨_, call⟩ := afterCallJob_call now timeout deadline s p <;> rw [call] <;> nofun

theorem afterCallJob_world (now : Tick) (timeout : Span) (deadline : Tick) (s : Service S σ κ)
    (p : Progress κ × Stage S σ) : (afterCallJob now timeout deadline s p).2 = p.2.world := by
  obtain ⟨call, g, ran, _, rfl | ⟨job, rfl⟩⟩ := afterCallJob_spec now timeout deadline s p <;>
    rw [ran] <;> rfl

/-- A part of the state that stays as it is where a job is given up is as the job left it. -/
theorem afterCallJob_part {part : σ → α} (abandon : ∀ job s, part (Duty.abandon job s) = part s)
    (now : Tick) (timeout : Span) (deadline : Tick) (s : Service S σ κ)
    (p : Progress κ × Stage S σ) :
    part (afterCallJob now timeout deadline s p).1.state = part p.2.state := by
  obtain ⟨call, g, ran, _, rfl | ⟨job, rfl⟩⟩ := afterCallJob_spec now timeout deadline s p
  · rw [ran]
    rfl
  · rw [ran]
    exact abandon job p.2.state

theorem endCall_part {part : σ → α} (abandon : ∀ job s, part (Duty.abandon job s) = part s)
    (s : Service S σ κ) : part s.endCall.state = part s.state := by
  unfold endCall
  split
  · exact abandon _ s.state
  · rfl

theorem endCall_beside (s : Service S σ κ) :
    s.endCall.tasks = s.tasks ∧ s.endCall.handle = s.handle := by
  unfold endCall
  split <;> exact ⟨rfl, rfl⟩

end Calls

section Polling

variable [Duty σ κ] [Work S σ κ]

theorem beginFlush_beside (now : Tick) (timeout : Span) (s : Service S σ κ) (w : World S) :
    (beginFlush now timeout s w).1.tasks = s.tasks ∧
      (beginFlush now timeout s w).1.handle = s.handle :=
  afterCallJob_beside ..

/-- A call that goes on does not touch the tasks. -/
theorem pollCall_beside (now : Tick) (s : Service S σ κ) (w : World S) :
    (pollCall now s w).1.tasks = s.tasks ∧ (pollCall now s w).1.handle = s.handle := by
  unfold pollCall
  split
  · exact ⟨rfl, rfl⟩
  · split
    · exact ⟨rfl, rfl⟩
    · exact ⟨rfl, rfl⟩
    · exact beginFlush_beside ..
    · split
      · exact afterCallJob_beside ..
      · exact afterCallJob_beside ..

variable (S) in
/-- A part of the state that no job touches. -/
structure Untouched (part : σ → α) : Prop where
  begin : ∀ (now : Tick) (g : Stage S σ), part (Work.begin now g).2.state = part g.state
  resume : ∀ (now : Tick) (job : κ) (g : Stage S σ),
    part (Work.resume now job g).2.state = part g.state
  abandon : ∀ (job : κ) (s : σ), part (Duty.abandon job s) = part s
  notice : ∀ s : σ, part (Duty.takeNotice s) = part s

namespace Untouched

variable {part : σ → α}

theorem map {β : Type} (f : α → β) (U : Untouched S part) : Untouched S fun s => f (part s) where
  begin now g := congrArg f (U.begin now g)
  resume now job g := congrArg f (U.resume now job g)
  abandon job s := congrArg f (U.abandon job s)
  notice s := congrArg f (U.notice s)

theorem beginJob (U : Untouched S part) (now : Tick) (t : Task κ) (g : Stage S σ) :
    part (beginJob now t g).2.state = part g.state := by
  unfold Service.beginJob readied
  rw [afterJob_state, U.begin]
  dsimp only
  split_ifs
  · rfl
  · exact U.notice g.state

theorem pollTask (U : Untouched S part) (now : Tick) (t : Task κ) (g : Stage S σ) :
    part (pollTask now t g).2.state = part g.state := by
  have outcome := polled now t g
  generalize Service.pollTask now t g = p at outcome ⊢
  cases outcome with
  | idle => rfl
  | resumed => rw [afterJob_state, U.resume]
  | begun => exact U.beginJob now t _
  | ended => rfl

theorem pollList (U : Untouched S part) (now : Tick) (tasks : List (Task κ)) (g : Stage S σ) :
    part (pollList now tasks g).2.state = part g.state := by
  induction tasks generalizing g with
  | nil => rfl
  | cons t rest ih => exact (ih _).trans (U.pollTask now t g)

variable {s : Service S σ κ} {w : World S}

theorem beginFlush (U : Untouched S part) (now : Tick) (timeout : Span) :
    part (beginFlush now timeout s w).1.state = part s.state :=
  (afterCallJob_part U.abandon now timeout _ s _).trans (U.begin now (s.stage w))

theorem pollCall (U : Untouched S part) (now : Tick) :
    part (pollCall now s w).1.state = part s.state := by
  unfold Service.pollCall
  split
  · rfl
  · split
    · rfl
    · rfl
    · exact U.beginFlush now _
    · split
      · exact (afterCallJob_part U.abandon now _ _ s _).trans (U.resume now _ (s.stage w))
      · exact afterCallJob_part U.abandon now _ _ s _

end Untouched

/-- What jobs leave around them: everything but the storage is as it was, and there is no new
notice. -/
structure Beside (g g' : Stage S σ) : Prop where
  world : g'.world = { g.world with store := g'.world.store }
  notice : Duty.hasNotice g'.state = true → Duty.hasNotice g.state = true

/-- Jobs that change nothing around them but the storage, and give no notice. -/
class Discreet (S σ : Type) (κ : outParam Type) [Duty σ κ] [Work S σ κ] : Prop where
  begin : ∀ (now : Tick) (g : Stage S σ), Beside g (Work.begin now g).2
  resume : ∀ (now : Tick) (job : κ) (g : Stage S σ), Beside g (Work.resume now job g).2
  taken : ∀ s : σ, Duty.hasNotice (Duty.takeNotice s) = true → Duty.hasNotice s = true

namespace Discreet

variable [Discreet S σ κ]

theorem beginJob (now : Tick) (t : Task κ) (g : Stage S σ) :
    (beginJob now t g).2.world.picks = g.world.picks ∧
      (Duty.hasNotice (beginJob now t g).2.state = true → Duty.hasNotice g.state = true) := by
  obtain ⟨world, notice⟩ := begin now { g with state := readied g.state t }
  unfold Service.beginJob
  rw [afterJob_picks, afterJob_state, world]
  refine ⟨rfl, fun there => ?_⟩
  have ready := notice there
  unfold readied at ready
  split at ready
  · exact ready
  · exact taken (S := S) g.state ready

theorem pollTask (now : Tick) (t : Task κ) (g : Stage S σ) :
    Duty.hasNotice (pollTask now t g).2.state = true → Duty.hasNotice g.state = true := by
  have outcome := polled now t g
  generalize Service.pollTask now t g = p at outcome ⊢
  cases outcome with
  | idle | ended => exact id
  | @resumed job =>
    rw [afterJob_state]
    exact (resume now job g).notice
  | begun => exact (beginJob now t _).2

theorem pollList (now : Tick) (tasks : List (Task κ)) (g : Stage S σ) :
    Duty.hasNotice (pollList now tasks g).2.state = true → Duty.hasNotice g.state = true := by
  induction tasks generalizing g with
  | nil => exact id
  | cons t rest ih => exact fun there => pollTask now t g (ih _ there)

end Discreet
end Polling
end Service
end Telemetry
