import Mathlib.Data.List.Perm.Basic
import Telemetry.Proofs.Sink.Settling

/-! A stop ends.
It waits for the task that it told to end, whose job under way is not cut short, and
flushes then within its time limit. Wherever the job of that task ends by some moment,
the stop ends within its time limit after that moment. -/
namespace Telemetry.Service

variable {S σ κ : Type}

/-- The jobs of tasks, each with the mark whether a stop waits for it. -/
def marked (id : Nat) (tasks : List (Task κ)) : List (Bool × κ) :=
  tasks.filterMap fun t => t.job.map fun job => (t.cancelled && t.id == id, job)

theorem marked_cons (id : Nat) (t : Task κ) (rest : List (Task κ)) :
    marked id (t :: rest) = marked id [t] ++ marked id rest := by
  cases under : t.job <;> simp [marked, under]

theorem mem_marked {id : Nat} {tasks : List (Task κ)} {mark : Bool} {job : κ} :
    (mark, job) ∈ marked id tasks ↔
      ∃ t ∈ tasks, t.job = some job ∧ (t.cancelled && t.id == id) = mark := by
  simp only [marked, List.mem_filterMap, Option.map_eq_some_iff, Prod.mk.injEq]
  constructor
  · rintro ⟨t, member, job', under, same, rfl⟩
    exact ⟨t, member, under, same⟩
  · rintro ⟨t, member, under, same⟩
    exact ⟨t, member, job, under, same, rfl⟩

theorem marked_append (id : Nat) (before after : List (Task κ)) :
    marked id (before ++ after) = marked id before ++ marked id after :=
  List.filterMap_append

/-- What a marked job leaves behind after it was run. -/
def Leaves (I : Stage S σ → List (Bool × κ) → Prop) (mark : Bool) (jobs : List (Bool × κ)) :
    Progress κ × Stage S σ → Prop
  | (.finished _, g) => I g jobs
  | (.waiting job, g) => I g ((mark, job) :: jobs)

/-- What the jobs of tasks keep when they are run at a moment, as far as the tasks that a stop
waits for begin no more than a number of them. -/
structure KeepsAt [Duty σ κ] [Work S σ κ] (now : Tick)
    (I : Nat → Stage S σ → List (Bool × κ) → Prop) : Prop where
  perm : ∀ (more : Nat) {g : Stage S σ} {jobs jobs' : List (Bool × κ)}, jobs.Perm jobs' →
    I more g jobs → I more g jobs'
  surroundings : ∀ {more : Nat} {g g' : Stage S σ} {jobs : List (Bool × κ)},
    g'.state = g.state → g'.world.store = g.world.store → I more g jobs → I more g' jobs
  notice : ∀ {more : Nat} {g : Stage S σ} {jobs : List (Bool × κ)}, I more g jobs →
    I more { g with state := Duty.takeNotice g.state } jobs
  begin : ∀ {more : Nat} {g : Stage S σ} {jobs : List (Bool × κ)}, I more g jobs →
    Leaves (I more) false jobs (Work.begin now g)
  begin_told : ∀ {more : Nat} {g : Stage S σ} {jobs : List (Bool × κ)}, I (more + 1) g jobs →
    Leaves (I more) true jobs (Work.begin now g)
  resume : ∀ {more : Nat} {g : Stage S σ} {mark : Bool} {job : κ} {jobs : List (Bool × κ)},
    I more g ((mark, job) :: jobs) → isReached now (Duty.wake? job g.state) = true →
    Leaves (I more) mark jobs (Work.resume now job g)

/-- The task has no job to begin by a moment, once the one under way has ended. -/
def Rests [Duty σ κ] (joined : Tick) (s : σ) (t : Task κ) : Prop :=
  isReached joined (jobDue s t) = true → t.tick = none ∧ t.job.isSome = true

section Rests

variable [Duty σ κ] {joined : Tick} {s s' : σ} {t t' : Task κ}

theorem Rests.not_due (rests : Rests joined s t) (resting : t.job = none) :
    ¬ isReached joined (jobDue s t) = true := by
  intro due
  have under := (rests due).2
  rw [resting] at under
  cases under

theorem Rests.mono (rests : Rests joined s t)
    (fewer : Duty.hasNotice s' = true → Duty.hasNotice s = true) : Rests joined s' t := by
  intro due
  refine rests ?_
  cases ticks : t.tick with
  | some tick => simpa [jobDue, ticks] using due
  | none =>
    have there : Duty.hasNotice s' = true := by
      by_contra silent
      simp [jobDue, ticks, silent, isReached] at due
    simp [jobDue, ticks, fewer there, isReached]

variable [Work S σ κ] {now : Tick} {g : Stage S σ}

theorem Rests.pollTask (rests : Rests joined g.state t) (before : now ≤ joined)
    (lives : (pollTask now t g).1 = some t') : Rests joined g.state t' := by
  have outcome := polled now t g
  generalize Service.pollTask now t g = p at outcome lives
  cases outcome with
  | idle =>
    cases lives
    exact rests
  | resumed =>
    obtain ⟨job, rfl, ticking⟩ := afterJob_lives lives
    intro due
    have none_ticks := (rests due).1
    refine ⟨none_ticks, ?_⟩
    cases job with
    | some job => rfl
    | none =>
      have ticks := ticking rfl
      rw [none_ticks] at ticks
      cases ticks
  | begun resting due =>
    obtain ⟨tick, there, come⟩ := isReached_iff.mp due
    exact absurd (isReached_iff.mpr ⟨tick, there, Nat.le_trans come before⟩)
      (rests.not_due resting)
  | ended => cases lives

theorem rests_pollList [Discreet S σ κ] {id : Nat} {tasks : List (Task κ)} (before : now ≤ joined)
    (rests : ∀ t ∈ tasks, t.id = id → Rests joined g.state t) :
    ∀ t ∈ (pollList now tasks g).1, t.id = id →
      Rests joined (pollList now tasks g).2.state t := by
  induction tasks generalizing g with
  | nil => nofun
  | cons first rest ih =>
    intro t member same
    rcases List.mem_append.mp member with here | later
    · have lives := Option.mem_toList.mp here
      have number := (pollTask_same lives).1
      have still := (rests first List.mem_cons_self (number ▸ same)).pollTask before lives
      exact still.mono (Discreet.pollList now (first :: rest) g)
    · exact ih (fun t member same => (rests t (List.mem_cons_of_mem _ member) same).mono
        (Discreet.pollTask now first g)) t later same

end Rests

section KeepsAt

variable [Duty σ κ] [Work S σ κ] {now joined : Tick}
  {I : Nat → Stage S σ → List (Bool × κ) → Prop} {more id : Nat} {jobs : List (Bool × κ)}
  {g : Stage S σ}

theorem KeepsAt.afterJob (K : KeepsAt now I) {t : Task κ} {p : Progress κ × Stage S σ}
    (leaves : Leaves (I more) (t.cancelled && t.id == id) jobs p) :
    I more (afterJob t p).2 (marked id (afterJob t p).1.toList ++ jobs) := by
  obtain ⟨progress, g⟩ := p
  cases progress with
  | waiting job => exact leaves
  | finished result =>
    have idle : marked id (Service.afterJob t (.finished result, g)).1.toList = [] := by
      simp only [Service.afterJob]
      split <;> rfl
    rw [idle]
    exact K.surroundings (afterJob_state t (.finished result, g))
      (afterJob_store t (.finished result, g))
      leaves

theorem KeepsAt.readied (K : KeepsAt now I) (t : Task κ) (picks : List Bool)
    (kept : I more g jobs) :
    I more { g.picking picks with state := readied g.state t } jobs := by
  have picked : I more (g.picking picks) jobs := K.surroundings (g := g) rfl rfl kept
  unfold Service.readied
  split
  · exact picked
  · exact K.notice picked

variable [Discreet S σ κ]

/-- Where a task is waited for and begins a job, one less may be begun, and there is one less
that the scheduler picks. -/
theorem KeepsAt.beginJob (K : KeepsAt now I) {t : Task κ} {picks : List Bool}
    (resting : t.job = none) (due : isReached now (jobDue g.state t) = true)
    (picked : g.world.picks = if t.cancelled then true :: picks else picks)
    (kept : I more g jobs)
    (room : g.world.further ≤ more ∨ (t.id = id → Rests now g.state t)) :
    let p := beginJob now t (g.picking picks)
    ∃ more', I more' p.2 (marked id p.1.toList ++ jobs) ∧
      (g.world.further ≤ more → p.2.world.further ≤ more') ∧
      ((t.id = id → Rests now g.state t) → more' = more) := by
  intro p
  have further : p.2.world.further = picks.count true :=
    congrArg (List.count true) (Discreet.beginJob now t (g.picking picks)).1
  rw [further]
  by_cases mark : (t.cancelled && t.id == id) = true
  · obtain ⟨told, same⟩ : t.cancelled = true ∧ t.id = id := by simpa using mark
    have cost : g.world.further = picks.count true + 1 := by
      simp [World.further, picked, told]
    have busy : ¬ (t.id = id → Rests now g.state t) := fun rests =>
      (rests same).not_due resting due
    have enough := room.resolve_right busy
    obtain ⟨fewer, rfl⟩ : ∃ fewer, more = fewer + 1 := ⟨more - 1, by omega⟩
    refine ⟨fewer, K.afterJob ?_, fun _ => by omega, fun rests => absurd rests busy⟩
    have begun := K.begin_told (K.readied t picks kept)
    rwa [← mark] at begun
  · have cost : picks.count true ≤ g.world.further := by
      rw [World.further, picked]
      split
      · exact List.count_le_count_cons
      · exact Nat.le_refl _
    refine ⟨more, K.afterJob ?_, fun enough => Nat.le_trans cost enough, fun _ => rfl⟩
    have begun := K.begin (K.readied t picks kept)
    rwa [← Bool.eq_false_iff.mpr mark] at begun

theorem KeepsAt.pollTask (K : KeepsAt now I) {t : Task κ}
    (kept : I more g (marked id [t] ++ jobs))
    (room : g.world.further ≤ more ∨ (t.id = id → Rests now g.state t)) :
    ∃ more', I more' (pollTask now t g).2 (marked id (pollTask now t g).1.toList ++ jobs) ∧
      (g.world.further ≤ more → (pollTask now t g).2.world.further ≤ more') ∧
      ((t.id = id → Rests now g.state t) → more' = more) := by
  have outcome := polled now t g
  generalize Service.pollTask now t g = p at outcome ⊢
  have unmarked (resting : t.job = none) : marked id [t] = [] := by simp [marked, resting]
  cases outcome with
  | idle => exact ⟨more, kept, fun enough => enough, fun _ => rfl⟩
  | @resumed job underWay woken =>
    have here : marked id [t] = [(t.cancelled && t.id == id, job)] := by simp [marked, underWay]
    rw [here] at kept
    refine ⟨more, K.afterJob (K.resume kept woken), fun enough => ?_, fun _ => rfl⟩
    rw [World.further, afterJob_picks, (Discreet.resume now job g).world]
    exact enough
  | @ended picks resting told left =>
    rw [unmarked resting] at kept
    have picked : I more (g.picking picks) jobs := K.surroundings (g := g) rfl rfl kept
    refine ⟨more, picked, fun enough => ?_, fun _ => rfl⟩
    show picks.count true ≤ more
    rwa [left]
  | @begun picks resting due picked =>
    rw [unmarked resting] at kept
    exact K.beginJob resting due picked kept room

theorem KeepsAt.pollList (K : KeepsAt now I) {tasks : List (Task κ)}
    (kept : I more g (marked id tasks ++ jobs))
    (room : g.world.further ≤ more ∨ ∀ t ∈ tasks, t.id = id → Rests now g.state t) :
    ∃ more', I more' (pollList now tasks g).2 (marked id (pollList now tasks g).1 ++ jobs) ∧
      (g.world.further ≤ more → (pollList now tasks g).2.world.further ≤ more') ∧
      ((∀ t ∈ tasks, t.id = id → Rests now g.state t) → more' = more) := by
  induction tasks generalizing g jobs more with
  | nil => exact ⟨more, kept, fun enough => enough, fun _ => rfl⟩
  | cons t rest ih =>
    rw [marked_cons, List.append_assoc] at kept
    obtain ⟨more₁, first, fewer, same⟩ :=
      K.pollTask kept (room.imp_right fun rests => rests t List.mem_cons_self)
    have swapped := K.perm _ (List.perm_append_comm_assoc ..) first
    have still (rests : ∀ s ∈ t :: rest, s.id = id → Rests now g.state s) (s : Task κ)
        (member : s ∈ rest) (here : s.id = id) : Rests now (Service.pollTask now t g).2.state s :=
      (rests s (List.mem_cons_of_mem _ member) here).mono (Discreet.pollTask now t g)
    obtain ⟨more₂, others, fewer', same'⟩ := ih swapped (room.imp fewer still)
    refine ⟨more₂, ?_, fun enough => fewer' (fewer enough), fun rests => ?_⟩
    · have back := K.perm _ (List.perm_append_comm_assoc ..) others
      show I more₂ (Service.pollList now rest _).2 (marked id (_ ++ _) ++ jobs)
      rw [marked_append, List.append_assoc]
      exact back
    · exact (same' (still rests)).trans (same (rests t List.mem_cons_self))

end KeepsAt

/-- Jobs of which it can be said that the ones waited for end by a moment. -/
class Punctual (S σ : Type) (κ : outParam Type) [Duty σ κ] [Work S σ κ] extends
    Paced S σ κ, Discreet S σ κ where
  /-- The marked jobs end by a moment, seen from another one, and so do as many more that are
  begun one after another. -/
  EndBy : Nat → Tick → Tick → Stage S σ → List (Bool × κ) → Prop
  keepsAt : ∀ limit now : Tick, KeepsAt now fun more => EndBy more limit now
  /-- There is something to wait for until then. -/
  next : ∀ {more : Nat} {limit now : Tick} {g : Stage S σ} {jobs : List (Bool × κ)} {job : κ},
    EndBy more limit now g jobs → (true, job) ∈ jobs →
    ∃ other ∈ jobs, ∃ t ≤ limit, Duty.wake? other.2 g.state = some t
  /-- Time may pass as long as nobody wakes up. -/
  later : ∀ {more : Nat} {limit now t : Tick} {g : Stage S σ} {jobs : List (Bool × κ)} {job : κ},
    EndBy more limit now g jobs → (true, job) ∈ jobs → now ≤ t →
    (∀ other ∈ jobs, ∀ t', Duty.wake? other.2 g.state = some t' → t ≤ t') →
    EndBy more limit t g jobs
  /-- The patience of the state is enough for each job. -/
  patient : ∀ {more more' : Nat} {limit limit' now : Tick} {g : Stage S σ}
    {jobs : List (Bool × κ)}, EndBy more limit now g jobs →
    now + more' * Duty.patience g.state + Duty.patience g.state ≤ limit' →
    (∀ other ∈ jobs, now + more' * Duty.patience g.state +
      ((Duty.wake? other.2 g.state).getD 0 + Duty.patience g.state) ≤ limit') →
    EndBy more' limit' now g jobs

section Punctual

variable [Duty σ κ] [Work S σ κ] [Punctual S σ κ]

/-- The scheduler lets no more jobs begin than a number of them, or the tasks that are waited
for have none to begin by a moment. -/
def Room (more : Nat) (joined : Tick) (id : Nat) (s : Service S σ κ) (w : World S) : Prop :=
  w.further ≤ more ∨ ∀ t ∈ s.tasks, t.id = id → Rests joined s.state t

/-- A stop that ends by a moment: it waits for tasks that were told to end and whose jobs
leave it the time to flush, or flushes, or has ended. -/
def Closing (timeout : Span) (limit now : Tick) (s : Service S σ κ) (w : World S) : Prop :=
  match s.call with
  | none => False
  | some (.joining id given) => given = timeout ∧ (∀ t ∈ s.tasks, t.id = id → t.cancelled = true) ∧
      ∃ more joined, now ≤ joined ∧ joined + timeout.ticks ≤ limit ∧ Room more joined id s w ∧
        Punctual.EndBy more joined now (s.stage w) (marked id s.tasks)
  | some (.working _ _ deadline) => deadline ≤ limit
  | some (.ended _) => True

variable {timeout : Span} {limit now : Tick} {s : Service S σ κ} {w : World S}

theorem closing_afterCallJob {given : Span} {deadline : Tick} (p : Progress κ × Stage S σ)
    (before : deadline ≤ limit) :
    Closing timeout limit now (afterCallJob now given deadline s p).1
      (afterCallJob now given deadline s p).2 := by
  obtain ⟨result, call⟩ | ⟨job, call⟩ := afterCallJob_call now given deadline s p
  · simp only [Closing, call]
  · simp only [Closing, call]
    exact before

theorem closing_pollCall (closing : Closing timeout limit now s w) :
    Closing timeout limit now (pollCall now s w).1 (pollCall now s w).2 := by
  unfold pollCall
  split
  · exact closing
  · cases inHand : s.call with
    | none =>
      simp only [Closing, inHand] at closing
    | some call =>
      have kept := closing
      simp only [Closing, inHand] at closing
      cases call with
      | ended result => exact kept
      | joining id given =>
        obtain ⟨rfl, _, more, joined, before, within, _⟩ := closing
        exact closing_afterCallJob _ (Nat.le_trans (Nat.add_le_add_right before _) within)
      | working job given deadline =>
        simp only
        split
        · exact closing_afterCallJob _ closing
        · exact closing_afterCallJob _ closing

theorem closing_pollTasks (closing : Closing timeout limit now s w) :
    Closing timeout limit now (pollTasks now s w).1 (pollTasks now s w).2 := by
  have call : (pollTasks now s w).1.call = s.call := rfl
  unfold Closing at closing ⊢
  rw [call]
  split at closing
  · exact closing
  · rename_i id given _
    obtain ⟨same, told, more, joined, before, within, room, ends⟩ := closing
    rw [← List.append_nil (marked id s.tasks)] at ends
    have resting (rests : ∀ t ∈ s.tasks, t.id = id → Rests joined s.state t) (t : Task κ)
        (member : t ∈ s.tasks) (here : t.id = id) : Rests now s.state t := fun due =>
      rests t member here (isReached_mono before due)
    obtain ⟨more', kept, fewer, still⟩ :=
      (Punctual.keepsAt joined now).pollList ends (room.imp_right resting)
    rw [List.append_nil] at kept
    refine ⟨same, fun t member here => ?_, more', joined, before, within, ?_, kept⟩
    · obtain ⟨t', there, number, cancelled, _⟩ := mem_pollList member
      rw [cancelled]
      exact told t' there (number ▸ here)
    · refine room.imp fewer fun rests => ?_
      exact rests_pollList (g := s.stage w) before rests
  · exact closing
  · exact closing

omit [Work S σ κ] [Punctual S σ κ] in
theorem now_lt_of_due {t : Tick} (quiet : isReached now s.due = false) (due : s.due = some t) :
    now < t := by
  simpa [due, isReached] using quiet

omit [Work S σ κ] [Punctual S σ κ] in
theorem reached_of_task {t : Task κ} (member : t ∈ s.tasks)
    (reached : isReached now (taskDue s.state t) = true) : isReached now s.due = true := by
  rw [isReached_due, Bool.or_eq_true, List.any_eq_true]
  exact .inr ⟨t, member, reached⟩

omit [Work S σ κ] [Punctual S σ κ] in
theorem reached_of_call (reached : isReached now s.callDue = true) :
    isReached now s.due = true := by
  rw [isReached_due, reached, Bool.true_or]

omit [Work S σ κ] [Punctual S σ κ] in
/-- A stop that waits when nothing is due waits for a job. -/
theorem awaited_of_quiet {id : Nat} {given : Span} (quiet : isReached now s.due = false)
    (inHand : s.call = some (.joining id given))
    (told : ∀ t ∈ s.tasks, t.id = id → t.cancelled = true) :
    ∃ t ∈ s.tasks, ∃ job, t.job = some job ∧ (true, job) ∈ marked id s.tasks := by
  have there : (s.tasks.any fun t => t.id == id) = true := by
    by_contra gone
    have reached : isReached now s.callDue = true := by simp [callDue, inHand, gone, isReached]
    rw [reached_of_call reached] at quiet
    cases quiet
  obtain ⟨t, member, same⟩ := List.any_eq_true.mp there
  have cancelled := told t member (by simpa using same)
  cases under : t.job with
  | none =>
    have reached : isReached now (taskDue s.state t) = true := by
      simp [taskDue, under, cancelled, isReached]
    rw [reached_of_task member reached] at quiet
    cases quiet
  | some job =>
    exact ⟨t, member, job, under, mem_marked.mpr ⟨t, member, under, by simp [cancelled, same]⟩⟩

/-- A stop that has not ended when nothing is due has something to wait for. -/
theorem closing_next (quiet : isReached now s.due = false) (running : s.result? = none)
    (closing : Closing timeout limit now s w) :
    ∃ t, s.due = some t ∧ now < t ∧ t ≤ limit ∧ Closing timeout limit t s w := by
  have kept := closing
  cases inHand : s.call with
  | none => simp only [Closing, inHand] at closing
  | some call =>
    simp only [Closing, inHand] at closing
    cases call with
    | ended result => simp [result?, inHand] at running
    | working job given deadline =>
      have callDue : s.callDue = earliest (Duty.wake? job s.state) (some deadline) := by
        simp [callDue, inHand]
      have reached : isReached deadline s.due = true := by
        refine reached_of_call ?_
        rw [callDue, isReached_earliest]
        simp [isReached]
      obtain ⟨t, due, before⟩ := isReached_iff.mp reached
      refine ⟨t, due, now_lt_of_due quiet due, Nat.le_trans before closing, ?_⟩
      simp only [Closing, inHand]
      exact closing
    | joining id given =>
      obtain ⟨same, told, more, joined, before, within, room, ends⟩ := closing
      obtain ⟨_, _, job, _, awaited⟩ := awaited_of_quiet quiet inHand told
      have wakes (other : Bool × κ) (member : other ∈ marked id s.tasks) {t' : Tick}
          (wake : Duty.wake? other.2 s.state = some t') :
          ∃ t, s.due = some t ∧ t ≤ t' := by
        obtain ⟨task, there, under, _⟩ := mem_marked.mp member
        have due : taskDue s.state task = some t' := by simpa [taskDue, under] using wake
        exact exists_due (fun reached => reached_of_task there reached) due
      obtain ⟨other, member, t', until', wake⟩ := Punctual.next ends awaited
      obtain ⟨t, due, first⟩ := wakes other member wake
      have after := now_lt_of_due quiet due
      refine ⟨t, due, after, ?_, ?_⟩
      · exact Nat.le_trans (Nat.le_trans first until') (Nat.le_trans (Nat.le_add_right _ _) within)
      · simp only [Closing, inHand]
        refine ⟨same, told, more, joined, Nat.le_trans first until', within, room,
          Punctual.later ends awaited (Nat.le_of_lt after) fun other member t' wake => ?_⟩
        obtain ⟨t₂, due₂, before₂⟩ := wakes other member wake
        obtain rfl : t = t₂ := Option.some.inj (due.symm.trans due₂)
        exact before₂

/-- What a task adds to the moment by which a call has ended. -/
def allowance (s : σ) (t : Task κ) : Tick :=
  (t.job.bind fun job => Duty.wake? job s).getD 0 + Duty.patience s

omit [Work S σ κ] [Punctual S σ κ] in
theorem allowance_le (state : σ) {tasks : List (Task κ)} {t : Task κ} (member : t ∈ tasks)
    (start : Nat) : start + allowance state t ≤ tasks.foldl
      (fun n t => n + ((t.job.bind fun job => Duty.wake? job state).getD 0) + Duty.patience state)
      start := by
  have grows (tasks : List (Task κ)) (n : Nat) : n ≤ tasks.foldl
      (fun n t => n + ((t.job.bind fun job => Duty.wake? job state).getD 0) + Duty.patience state)
      n := by
    induction tasks generalizing n with
    | nil => exact Nat.le_refl _
    | cons t rest ih =>
      refine Nat.le_trans ?_ (ih _)
      lia
  induction tasks generalizing start with
  | nil => cases member
  | cons other rest ih =>
    rw [List.foldl_cons]
    rcases List.mem_cons.mp member with rfl | later
    · refine Nat.le_trans ?_ (grows rest _)
      simp only [allowance]
      lia
    · refine Nat.le_trans ?_ (ih later _)
      lia

/-- A stop that waits ends by the latest moment of the sink. -/
theorem closing_latest (quiet : isReached now s.due = false)
    (closing : Closing timeout limit now s w) : Closing timeout (latest now s w) now s w := by
  cases inHand : s.call with
  | none => simp only [Closing, inHand] at closing
  | some call =>
    simp only [Closing, inHand] at closing ⊢
    cases call with
    | ended result => trivial
    | working job given deadline =>
      simp only [latest, inHand]
      lia
    | joining id given =>
      obtain ⟨rfl, told, more, joined, before, within, _, ends⟩ := closing
      obtain ⟨task, there, _, _, _⟩ := awaited_of_quiet quiet inHand told
      simp only [latest, inHand]
      generalize sum : s.tasks.foldl (fun n t => n +
        ((t.job.bind fun job => Duty.wake? job s.state).getD 0) + Duty.patience s.state) 0 = total
      have covers (t : Task κ) (member : t ∈ s.tasks) : allowance s.state t ≤ total := by
        have bound := allowance_le s.state member 0
        rwa [Nat.zero_add, sum] at bound
      refine ⟨trivial, told, w.further, now + w.further * Duty.patience s.state + total, by lia,
        by lia, .inl (Nat.le_refl _), Punctual.patient ends ?_ ?_⟩
      · have bound := covers task there
        simp only [allowance] at bound
        show now + w.further * Duty.patience s.state + Duty.patience s.state ≤ _
        lia
      · intro other member
        obtain ⟨t, there, under, _⟩ := mem_marked.mp member
        have bound := covers t there
        simp only [allowance, under, Option.bind_some] at bound
        exact Nat.add_le_add_left bound _

/-- Everything is done that can be done at a moment, and the stop goes on as it should. -/
structure Paused (timeout : Span) (limit horizon now : Tick) (s : Service S σ κ) (w : World S) :
    Prop where
  rhythmic : s.Rhythmic
  closing : Closing timeout limit now s w
  inTime : Closing timeout horizon now s w
  quiet : isReached now s.due = false

theorem paused_settle {horizon : Tick} (rhythmic : s.Rhythmic)
    (closing : Closing timeout limit now s w) (inTime : Closing timeout horizon now s w) :
    Paused timeout limit horizon now (Session.settle now (s, w)).1
      (Session.settle now (s, w)).2 := by
  obtain ⟨rhythmic', ⟨closing', inTime'⟩, quiet⟩ := Session.settle_spec now
    (I := fun s w => Closing timeout limit now s w ∧ Closing timeout horizon now s w)
    (fun _ _ kept => ⟨closing_pollCall kept.1, closing_pollCall kept.2⟩)
    (fun _ _ kept => ⟨closing_pollTasks kept.1, closing_pollTasks kept.2⟩) rhythmic
    ⟨closing, inTime⟩
  exact ⟨rhythmic', closing', inTime', quiet⟩

omit [Punctual S σ κ] in
theorem mem_pollList_of_asleep {t : Task κ} {job : κ} (under : t.job = some job)
    (asleep : ∀ state : σ, isReached now (Duty.wake? job state) = false) {tasks : List (Task κ)}
    (g : Stage S σ) (member : t ∈ tasks) : t ∈ (pollList now tasks g).1 := by
  induction tasks generalizing g with
  | nil => cases member
  | cons other rest ih =>
    rcases List.mem_cons.mp member with rfl | later
    · have idle : pollTask now t g = (some t, g) := by
        simp [pollTask, taskDue, under, asleep]
      have stays : t ∈ (pollTask now t g).1.toList := by simp [idle]
      exact List.mem_append_left _ stays
    · exact List.mem_append_right _ (ih _ later)

/-- Until a moment a stop waits for a task with a job. -/
def WaitsUntil (wake : Tick) (id : Nat) (job : κ) (now : Tick) (s : Service S σ κ) : Prop :=
  now < wake → (∃ timeout, s.call = some (.joining id timeout)) ∧
    ∃ t ∈ s.tasks, t.id = id ∧ t.job = some job

omit [Punctual S σ κ] in
theorem waitsUntil_settle [Paced S σ κ] {wake : Tick} {id : Nat} {job : κ}
    (asleep : ∀ state : σ, Duty.wake? job state = some wake) (rhythmic : s.Rhythmic)
    (waits : WaitsUntil wake id job now s) :
    WaitsUntil wake id job now (Session.settle now (s, w)).1 := by
  refine (Session.settle_spec now (I := fun s _ => WaitsUntil wake id job now s)
    (fun s w kept => ?_) (fun s w kept => ?_) rhythmic waits).2.1
  · intro before
    obtain ⟨⟨timeout, inHand⟩, t, member, here, under⟩ := kept before
    have idle : (pollCall now s w).1 = s := by
      have there : (s.tasks.any fun t => t.id == id) = true :=
        List.any_eq_true.mpr ⟨t, member, by simpa using here⟩
      simp [pollCall, callDue, inHand, there, isReached]
    show (∃ timeout, (pollCall now s w).1.call = _) ∧ ∃ t ∈ (pollCall now s w).1.tasks, _
    rw [idle]
    exact ⟨⟨timeout, inHand⟩, t, member, here, under⟩
  · intro before
    obtain ⟨inHand, t, member, here, under⟩ := kept before
    refine ⟨inHand, t, mem_pollList_of_asleep under (fun state => ?_) _ member, here, under⟩
    simpa [asleep, isReached] using before

/-- A stop ends, within the limit that its parts allow, and not before a job has woken up
that it waits for. -/
theorem stop_spec (rhythmic : s.Rhythmic) (within : now ≤ limit)
    (closing : Closing timeout limit now (beginStop now timeout s w).1
      (beginStop now timeout s w).2) :
    let p := Session.stop timeout (⟨s, w, now⟩ : Session S (Service S σ κ))
    (∃ result, p.1 = some result) ∧ now ≤ p.2.now ∧ p.2.now ≤ limit ∧
      ∀ (wake : Tick) (id : Nat) (job : κ), (∀ state : σ, Duty.wake? job state = some wake) →
        WaitsUntil wake id job now (beginStop now timeout s w).1 → wake ≤ p.2.now := by
  have begun := paused_settle (rhythmic_beginStop now timeout w rhythmic) closing closing
  let horizon := latest now (Session.settle now (beginStop now timeout s w)).1
    (Session.settle now (beginStop now timeout s w)).2
  let Sleeping (t : Tick) (a : Service S σ κ) : Prop := ∀ (wake : Tick) (id : Nat) (job : κ),
    (∀ state : σ, Duty.wake? job state = some wake) →
    WaitsUntil wake id job now (beginStop now timeout s w).1 → WaitsUntil wake id job t a
  obtain ⟨t, a, w', result, ⟨before, _, sleeping⟩, order, ended, same⟩ := Session.await_spec
    (I := fun t s w => t ≤ limit ∧ Paused timeout limit horizon t s w ∧ Sleeping t s)
    (p := beginStop now timeout s w)
    ⟨within, { begun with inTime := closing_latest begun.quiet begun.closing },
      fun wake id job asleep waits =>
        waitsUntil_settle asleep (rhythmic_beginStop now timeout w rhythmic) waits⟩
    fun t s w kept running => by
      obtain ⟨_, paused, sleeping⟩ := kept
      obtain ⟨t', due, after, inside, closing⟩ := closing_next paused.quiet running paused.closing
      obtain ⟨t'', due', _, inTime, closing'⟩ := closing_next paused.quiet running paused.inTime
      obtain rfl : t' = t'' := Option.some.inj (due.symm.trans due')
      refine ⟨t', due, after, inTime, inside, paused_settle paused.rhythmic closing closing',
        fun wake id job asleep waits => waitsUntil_settle asleep paused.rhythmic fun before => ?_⟩
      exact sleeping wake id job asleep waits (Nat.lt_trans after before)
  have whole : Session.stop timeout (⟨s, w, now⟩ : Session S (Service S σ κ)) =
      (some result, ⟨endCall a, w', t⟩) := same
  rw [whole]
  refine ⟨⟨result, rfl⟩, order, before, fun wake id job asleep waits => ?_⟩
  by_contra early
  obtain ⟨⟨given, joining⟩, _⟩ := sleeping wake id job asleep waits (Nat.lt_of_not_le early)
  have running : a.result? = none := by simp [result?, joining]
  rw [show a.result? = some result from ended] at running
  cases running

def awaited (s : Service S σ κ) : List (Bool × κ) :=
  s.tasks.filterMap fun t => t.job.map fun job => (s.handle == some t.id, job)

omit [Duty σ κ] [Work S σ κ] [Punctual S σ κ] in
theorem awaited_eq {id : Nat} (running : s.handle = some id) :
    s.awaited = marked id
      (s.tasks.map fun t => if t.id == id then { t with cancelled := true } else t) := by
  simp only [awaited, marked, List.filterMap_map, running]
  congr 1
  funext t
  simp only [Function.comp_apply]
  by_cases same : t.id = id
  · simp [same]
  · have mark : (t.id == id) = false := beq_eq_false_iff_ne.mpr same
    have mark' : (id == t.id) = false := beq_eq_false_iff_ne.mpr (Ne.symm same)
    simp [mark, mark']

omit [Duty σ κ] [Work S σ κ] [Punctual S σ κ] in
theorem exists_told {id : Nat} {tasks : List (Task κ)} {t : Task κ}
    (member : t ∈ tasks.map fun t => if t.id == id then { t with cancelled := true } else t)
    (here : t.id = id) : ∃ t' ∈ tasks, t'.id = id ∧ t = { t' with cancelled := true } := by
  obtain ⟨t', there, rfl⟩ := List.mem_map.mp member
  split at here
  · rename_i same
    rw [if_pos same]
    exact ⟨t', there, here, rfl⟩
  · rename_i other
    exact absurd (by simpa using here) other

/-- Where the job of the running task ends by some moment, and so do as many more as the
scheduler lets begin or there is none to begin, a stop ends within its time limit after that
moment. -/
theorem stop_by {more : Nat} {joined : Tick} (timeout : Span) (rhythmic : s.Rhythmic)
    (begun : now ≤ joined)
    (room : w.further ≤ more ∨ ∀ t ∈ s.tasks, s.handle = some t.id → Rests joined s.state t)
    (ends : Punctual.EndBy more joined now (s.stage w) s.awaited) :
    let p := Session.stop timeout (⟨s, w, now⟩ : Session S (Service S σ κ))
    (∃ result, p.1 = some result) ∧ now ≤ p.2.now ∧ p.2.now ≤ joined + timeout.ticks ∧
      ∀ t ∈ s.tasks, s.handle = some t.id → ∀ job, t.job = some job → ∀ wake,
        (∀ state : σ, Duty.wake? job state = some wake) → wake ≤ p.2.now := by
  have within : now ≤ joined + timeout.ticks := Nat.le_trans begun (Nat.le_add_right _ _)
  have closing : Closing timeout (joined + timeout.ticks) now (beginStop now timeout s w).1
      (beginStop now timeout s w).2 := by
    unfold beginStop
    split
    · exact closing_afterCallJob _ (Nat.add_le_add_right begun _)
    · rename_i id running
      simp only [Closing]
      refine ⟨trivial, fun t member here => ?_, more, joined, begun, Nat.le_refl _, ?_, ?_⟩
      · obtain ⟨t', _, _, rfl⟩ := exists_told member here
        rfl
      · refine room.imp_right fun rests t member here => ?_
        obtain ⟨t', there, same, rfl⟩ := exists_told member here
        exact rests t' there (by rw [running, same])
      · rw [awaited_eq running] at ends
        exact ends
  obtain ⟨returns, order, before, waits⟩ := stop_spec rhythmic within closing
  refine ⟨returns, order, before, fun t member running job under wake asleep => ?_⟩
  refine waits wake t.id job asleep fun _ => ?_
  simp only [beginStop, running]
  refine ⟨⟨timeout, rfl⟩, { t with cancelled := true }, ?_, rfl, under⟩
  exact List.mem_map.mpr ⟨t, member, by simp⟩

end Punctual
end Telemetry.Service
