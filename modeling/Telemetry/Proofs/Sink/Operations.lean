import Telemetry.Proofs.Sink.Keeping
import Telemetry.Proofs.Sink.Settling

/-! What may be done with a sink from outside, in any order and at any moments.
Everything that offers what sinks offer has the same operations: single sinks, channels
of several kinds, and whole loggers. What the jobs of a sink keep, each operation keeps,
except that it may take a record in. -/
namespace Telemetry

/-- An operation on a sink. A call under way is given up where another one is begun. -/
inductive Sink.Op
  | log (r : Record)
  | start (inRuntime : Bool) (now : Tick)
  | flush (now : Tick) (timeout : Span)
  | stop (now : Tick) (timeout : Span)
  /-- The call goes on. -/
  | callOn (now : Tick)
  /-- The background tasks go on. -/
  | tasksOn (now : Tick)
  /-- The call is given up. -/
  | drop
  | clocks (wall : Instant) (steady : Nat)

namespace Sink

variable {S α : Type} [Sink S α]

def Op.run (a : α) (w : World S) : Op → α × World S
  | .log r => (Sink.log r a w).2
  | .start inRuntime now => ((Sink.start inRuntime now a).2, w)
  | .flush now timeout => beginFlush now timeout (endCall a) w
  | .stop now timeout => beginStop now timeout (endCall a) w
  | .callOn now => pollCall now a w
  | .tasksOn now => pollTasks now a w
  | .drop => (endCall a, w)
  | .clocks wall steady => (a, { w with wall := wall, steady := steady })

def Op.brought (wall : Instant) : Op → List (Instant × Record)
  | .log r => [(wall, r)]
  | _ => []

theorem Op.brought_eq_nil {op : Op} (wall : Instant) (noRecord : ∀ r, op ≠ .log r) :
    op.brought wall = [] := by
  cases op with
  | log r => exact absurd rfl (noRecord r)
  | _ => rfl

/-- The sink and its surroundings after some operations. -/
def after (a : α) (w : World S) (ops : List Op) : α × World S :=
  ops.foldl (fun p op => op.run p.1 p.2) (a, w)

/-- All records that operations bring. -/
def history : α → World S → List Op → List (Instant × Record)
  | _, _, [] => []
  | a, w, op :: rest => op.brought w.wall ++ history (op.run a w).1 (op.run a w).2 rest

/-- What an operation keeps, together with the records brought until then, operations keep. -/
theorem after_keeps {I : List (Instant × Record) → α → World S → Prop}
    (keeps : ∀ h a w (op : Op), I h a w →
      I (h ++ op.brought w.wall) (op.run a w).1 (op.run a w).2)
    (ops : List Op) {h : List (Instant × Record)} {a : α} {w : World S} (start : I h a w) :
    I (h ++ history a w ops) (after a w ops).1 (after a w ops).2 := by
  induction ops generalizing h a w with
  | nil => simpa [history, after] using start
  | cons op rest ih =>
    have next := ih (keeps h a w op start)
    simpa [history, after, List.append_assoc] using next

end Sink

namespace Service

variable {S σ κ : Type}

def jobs (s : Service S σ κ) : List κ :=
  s.tasks.filterMap Task.job ++ (s.call.bind Call.job?).toList

theorem jobs_of_none {s : Service S σ κ} (free : s.call = none) :
    s.jobs = s.tasks.filterMap Task.job := by
  simp [jobs, free]

variable [Duty σ κ] [Work S σ κ] {I : Stage S σ → List κ → Prop}
  {Q : Except Fault Unit → Stage S σ → Prop}

theorem Keeps.pollList (K : Keeps I I Q) {tasks : List (Task κ)} {g : Stage S σ} {jobs : List κ}
    (now : Tick) (kept : I g (tasks.filterMap Task.job ++ jobs)) :
    I (pollList now tasks g).2 ((pollList now tasks g).1.filterMap Task.job ++ jobs) := by
  induction tasks generalizing g jobs with
  | nil => exact kept
  | cons t rest ih =>
    have parts : (t :: rest).filterMap Task.job = t.job.toList ++ rest.filterMap Task.job := by
      cases under : t.job <;> simp [under]
    rw [parts, List.append_assoc] at kept
    have first := K.pollTask now kept
    have swapped := K.perm (List.perm_append_comm_assoc ..) first
    have others := ih swapped
    have back := K.perm (List.perm_append_comm_assoc ..) others
    show I (Service.pollList now rest _).2 (List.filterMap Task.job (_ ++ _) ++ jobs)
    rw [List.filterMap_append, List.append_assoc]
    exact back

theorem Keeps.afterCallJob (K : Keeps I I Q) {s : Service S σ κ} {p : Progress κ × Stage S σ}
    (now : Tick) (timeout : Span) (deadline : Tick)
    (continues : Continues I Q (s.tasks.filterMap Task.job) p) :
    I ((afterCallJob now timeout deadline s p).1.stage (afterCallJob now timeout deadline s p).2)
      (afterCallJob now timeout deadline s p).1.jobs := by
  obtain ⟨progress, g⟩ := p
  cases progress with
  | finished result =>
    show I g (s.tasks.filterMap Task.job ++ [])
    rw [List.append_nil]
    exact continues.2
  | waiting job =>
    simp only [Service.afterCallJob]
    split
    · show I { g with state := Duty.abandon job g.state } (s.tasks.filterMap Task.job ++ [])
      rw [List.append_nil]
      exact K.abandon continues
    · exact K.perm (List.perm_append_singleton _ _).symm continues

theorem Keeps.endCall (K : Keeps I I Q) {s : Service S σ κ} {w : World S}
    (kept : I (s.stage w) s.jobs) : I (s.endCall.stage w) (s.endCall.tasks.filterMap Task.job) := by
  unfold Service.endCall
  split
  · rename_i job timeout deadline inHand
    have parts : s.jobs = s.tasks.filterMap Task.job ++ [job] := by
      simp [jobs, inHand, Call.job?]
    rw [parts] at kept
    exact K.abandon (K.perm (List.perm_append_singleton _ _) kept)
  · rename_i idle
    have parts : s.jobs = s.tasks.filterMap Task.job := by
      cases inHand : s.call with
      | none => exact jobs_of_none inHand
      | some call =>
        cases call with
        | working job timeout deadline => exact absurd inHand (idle job timeout deadline)
        | joining | ended => simp [jobs, inHand, Call.job?]
    rw [parts] at kept
    exact kept

theorem Keeps.beginFlush (K : Keeps I I Q) {s : Service S σ κ} {w : World S} (now : Tick)
    (timeout : Span) (kept : I (s.stage w) (s.tasks.filterMap Task.job)) :
    I ((beginFlush now timeout s w).1.stage (beginFlush now timeout s w).2)
      (beginFlush now timeout s w).1.jobs :=
  K.afterCallJob now timeout _ (K.begin now kept)

theorem Keeps.beginStop (K : Keeps I I Q) {s : Service S σ κ} {w : World S} (now : Tick)
    (timeout : Span) (kept : I (s.stage w) (s.tasks.filterMap Task.job)) :
    I ((beginStop now timeout s w).1.stage (beginStop now timeout s w).2)
      (beginStop now timeout s w).1.jobs := by
  unfold Service.beginStop
  split
  · exact K.beginFlush now timeout kept
  · rename_i id _
    show I (s.stage w) (List.filterMap Task.job (s.tasks.map _) ++ [])
    rw [List.append_nil, filterMap_job_told]
    exact kept

theorem Keeps.pollCall (K : Keeps I I Q) {s : Service S σ κ} {w : World S} (now : Tick)
    (kept : I (s.stage w) s.jobs) :
    I ((pollCall now s w).1.stage (pollCall now s w).2) (pollCall now s w).1.jobs := by
  unfold Service.pollCall
  split
  · exact kept
  · cases inHand : s.call with
    | none => exact kept
    | some call =>
      cases call with
      | ended result => exact kept
      | joining task timeout =>
        have parts : s.jobs = s.tasks.filterMap Task.job := by simp [jobs, inHand, Call.job?]
        exact K.beginFlush now timeout (parts ▸ kept)
      | working job timeout deadline =>
        have parts : s.jobs = s.tasks.filterMap Task.job ++ [job] := by
          simp [jobs, inHand, Call.job?]
        rw [parts] at kept
        have here := K.perm (List.perm_append_singleton _ _) kept
        simp only
        split
        · rename_i woken
          exact K.afterCallJob now timeout deadline (K.resume now here woken)
        · exact K.afterCallJob now timeout deadline here

omit [Work S σ κ] in
theorem start_same (inRuntime : Bool) (now : Tick) (s : Service S σ κ) :
    (start inRuntime now s).2.state = s.state ∧ (start inRuntime now s).2.jobs = s.jobs := by
  unfold start
  split
  · exact ⟨rfl, rfl⟩
  · split
    · exact ⟨rfl, rfl⟩
    · split
      · exact ⟨rfl, rfl⟩
      · exact ⟨rfl, by simp [jobs]⟩

/-- Every operation that brings no record keeps what jobs keep. -/
theorem Keeps.op (K : Keeps I I Q) {s : Service S σ κ} {w : World S} {op : Sink.Op}
    (noRecord : ∀ r, op ≠ .log r) (kept : I (s.stage w) s.jobs) :
    I ((op.run s w).1.stage (op.run s w).2) (op.run s w).1.jobs := by
  cases op with
  | log r => exact absurd rfl (noRecord r)
  | start inRuntime now =>
    obtain ⟨state, jobs⟩ := start_same inRuntime now s
    have kept' : I (s.stage w) (start inRuntime now s).2.jobs := jobs ▸ kept
    exact K.surroundings (g := s.stage w) state rfl kept'
  | flush now timeout => exact K.beginFlush now timeout (K.endCall kept)
  | stop now timeout => exact K.beginStop now timeout (K.endCall kept)
  | callOn now => exact K.pollCall now kept
  | tasksOn now => exact K.pollList now kept
  | drop =>
    show I (s.endCall.stage w) s.endCall.jobs
    rw [jobs_of_none (endCall_call s)]
    exact K.endCall kept
  | clocks wall steady => exact K.surroundings (g := s.stage w) rfl rfl kept

theorem rhythmic_op [Paced S σ κ] {s : Service S σ κ} (w : World S) (op : Sink.Op)
    (rhythmic : s.Rhythmic) : (op.run s w).1.Rhythmic := by
  cases op with
  | log r => exact rhythmic_log r w rhythmic
  | start inRuntime now => exact rhythmic_start inRuntime now rhythmic
  | flush now timeout => exact rhythmic_beginFlush now timeout w (rhythmic_endCall rhythmic)
  | stop now timeout => exact rhythmic_beginStop now timeout w (rhythmic_endCall rhythmic)
  | callOn now => exact rhythmic_pollCall now w rhythmic
  | tasksOn now => exact rhythmic_pollTasks now w rhythmic
  | drop => exact rhythmic_endCall rhythmic
  | clocks wall steady => exact rhythmic

end Service
end Telemetry
