import Telemetry.Sink.Work

/-! A sink with background tasks, and at most one call to it under way.
A task rests until its tick, runs a job, and rests again; one without ticks waits
for a notice and ends after its job. A call is a flush, which runs a job of its
own under a deadline, or a stop, which first waits for the task to end. A call
looks at its job before it looks at its deadline. A task that is told to end does
so when it rests; a job under way is not cut short by that. Where the next job is due
by then, the scheduler may pick that job first. -/
namespace Telemetry

structure Task (κ : Type) where
  id : Nat
  /-- The task was told to end. -/
  cancelled : Bool
  /-- When the next job is due; none for the task that waits for a notice. -/
  tick : Option Tick
  /-- The job under way. -/
  job : Option κ

inductive Call (κ : Type)
  /-- A stop that waits for a task to end. -/
  | joining (task : Nat) (timeout : Span)
  | working (job : κ) (timeout : Span) (deadline : Tick)
  | ended (result : Except Fault Unit)

/-- A sink, its tasks and its call. -/
structure Service (S σ κ : Type) where
  state : σ
  reporter : FailureReport
  tasks : List (Task κ)
  /-- The task that a stop waits for. -/
  handle : Option Nat
  nextId : Nat
  call : Option (Call κ)

/-- The earlier of two moments, where there are any. -/
def earliest : Option Tick → Option Tick → Option Tick
  | some a, some b => some (min a b)
  | some a, none => some a
  | none, b => b

/-- How late a tick may run and still keep the rhythm of its task. -/
def tickTolerance : Tick := 5

/-- The tick after one that runs now: a period after it, or a period from now when
it runs too late. -/
def nextTick (period now tick : Tick) : Tick :=
  if tick + tickTolerance < now then now + period else tick + period

/-- The task after a tick that runs now, where it has ticks. -/
def Task.next {κ : Type} (period now : Tick) (t : Task κ) : Task κ :=
  { t with tick := t.tick.map (nextTick period now) }

namespace Service

variable {S σ κ : Type}

/-- A sink that was not started. -/
def ofState (s : σ) : Service S σ κ where
  state := s
  reporter := .standard
  tasks := []
  handle := none
  nextId := 0
  call := none

section Duty

variable [Duty σ κ]

/-- When a task that rests has a job to begin. -/
def jobDue (s : σ) (t : Task κ) : Option Tick :=
  match t.tick with
  | some tick => some tick
  | none => if Duty.hasNotice s then some 0 else none

/-- The state in which a task begins a job: a task without ticks takes the notice. -/
def readied (s : σ) (t : Task κ) : σ :=
  if t.tick.isSome then s else Duty.takeNotice s

def taskDue (s : σ) (t : Task κ) : Option Tick :=
  match t.job with
  | some job => Duty.wake? job s
  | none => if t.cancelled then some 0 else jobDue s t

def callDue (s : Service S σ κ) : Option Tick :=
  match s.call with
  | none | some (.ended _) => none
  | some (.joining task _) => if s.tasks.any fun t => t.id == task then none else some 0
  | some (.working job _ deadline) => earliest (Duty.wake? job s.state) (some deadline)

def due (s : Service S σ κ) : Option Tick :=
  s.tasks.foldl (fun d t => earliest d (taskDue s.state t)) s.callDue

def isReached (now : Tick) : Option Tick → Bool
  | some t => t ≤ now
  | none => false

/-- Starts the background task, where tasks can run. A sink that was started and
not stopped since is left as it is. -/
def start (inRuntime : Bool) (now : Tick) (s : Service S σ κ) :
    Except Fault Unit × Service S σ κ :=
  if !inRuntime then (.error (.runtimeUnavailable (Duty.name s.state)), s)
  else if Duty.period s.state = some 0 then
    (.error (.invalidConfiguration
      (Duty.name s.state ++ " " ++ Duty.intervalName s.state ++ " must be positive")), s)
  else if s.handle.isSome then (.ok (), s)
  else
    let task : Task κ :=
      { id := s.nextId, cancelled := false, tick := (Duty.period s.state).map fun _ => now,
        job := none }
    (.ok (), { s with
      tasks := s.tasks ++ [task], handle := some s.nextId, nextId := s.nextId + 1 })

end Duty

section Work

variable [Duty σ κ] [Work S σ κ]

def stage (s : Service S σ κ) (w : World S) : Stage S σ := ⟨s.state, s.reporter, w⟩

def putStage (s : Service S σ κ) (g : Stage S σ) : Service S σ κ × World S :=
  ({ s with state := g.state, reporter := g.reporter }, g.world)

/-- A task after its job was run: a failure is reported, a task with ticks rests,
and one without ends. -/
def afterJob (t : Task κ) : Progress κ × Stage S σ → Option (Task κ) × Stage S σ
  | (.waiting job, g) => (some { t with job := some job }, g)
  | (.finished result, g) =>
    let g :=
      match result with
      | .ok () => g
      | .error fault => g.report (Duty.name g.state) (Duty.operation g.state) fault.message
    (if t.tick.isSome then some { t with job := none } else none, g)

/-- Begins a job of a task, whose next tick is set. -/
def beginJob (now : Tick) (t : Task κ) (g : Stage S σ) : Option (Task κ) × Stage S σ :=
  afterJob (t.next ((Duty.period g.state).getD 0) now)
    (Work.begin now { g with state := readied g.state t })

/-- A task that rests and was told to end does so, unless it has a job to begin and the
scheduler picks that. -/
def endTask (now : Tick) (t : Task κ) (g : Stage S σ) : Option (Task κ) × Stage S σ :=
  if isReached now (jobDue g.state t) then
    let (goesOn, w) := g.world.pick
    let g := { g with world := w }
    if goesOn then beginJob now t g else (none, g)
  else (none, g)

/-- Runs a task that has something to do. A task that has ended is gone. -/
def pollTask (now : Tick) (t : Task κ) (g : Stage S σ) : Option (Task κ) × Stage S σ :=
  if !isReached now (taskDue g.state t) then (some t, g)
  else
    match t.job with
    | some job => afterJob t (Work.resume now job g)
    | none => if t.cancelled then endTask now t g else beginJob now t g

def pollList (now : Tick) : List (Task κ) → Stage S σ → List (Task κ) × Stage S σ
  | [], g => ([], g)
  | t :: rest, g =>
    let (t, g) := pollTask now t g
    let (rest, g) := pollList now rest g
    (t.toList ++ rest, g)

def pollTasks (now : Tick) (s : Service S σ κ) (w : World S) : Service S σ κ × World S :=
  let (tasks, g) := pollList now s.tasks (s.stage w)
  { s with tasks := tasks }.putStage g

/-- The call after its job was run: it ends with the job, or at the deadline, where
the job is given up. -/
def afterCallJob (now : Tick) (timeout : Span) (deadline : Tick) (s : Service S σ κ) :
    Progress κ × Stage S σ → Service S σ κ × World S
  | (.finished result, g) => { s with call := some (.ended result) }.putStage g
  | (.waiting job, g) =>
    if deadline ≤ now then
      { s with call := some (.ended (.error (.timeout timeout))) }.putStage
        { g with state := Duty.abandon job g.state }
    else { s with call := some (.working job timeout deadline) }.putStage g

def beginFlush (now : Tick) (timeout : Span) (s : Service S σ κ) (w : World S) :
    Service S σ κ × World S :=
  afterCallJob now timeout (now + timeout.ticks) s (Work.begin now (s.stage w))

/-- Begins a stop: the task is told to end, and is waited for. -/
def beginStop (now : Tick) (timeout : Span) (s : Service S σ κ) (w : World S) :
    Service S σ κ × World S :=
  match s.handle with
  | none => beginFlush now timeout s w
  | some id =>
    ({ s with
        handle := none
        tasks := s.tasks.map fun t => if t.id == id then { t with cancelled := true } else t
        call := some (.joining id timeout) }, w)

/-- Runs the call, if it has something to do. -/
def pollCall (now : Tick) (s : Service S σ κ) (w : World S) : Service S σ κ × World S :=
  if !isReached now s.callDue then (s, w)
  else
    match s.call with
    | none | some (.ended _) => (s, w)
    | some (.joining _ timeout) => beginFlush now timeout s w
    | some (.working job timeout deadline) =>
      if isReached now (Duty.wake? job s.state) then
        afterCallJob now timeout deadline s (Work.resume now job (s.stage w))
      else afterCallJob now timeout deadline s (.waiting job, s.stage w)

/-- The result of the call, once it has ended. -/
def result? (s : Service S σ κ) : Option (Except Fault Unit) :=
  match s.call with
  | some (.ended result) => some result
  | _ => none

/-- The sink without its call: a job that it has under way is given up. -/
def endCall (s : Service S σ κ) : Service S σ κ :=
  match s.call with
  | some (.working job _ _) => { s with call := none, state := Duty.abandon job s.state }
  | _ => { s with call := none }

def log (r : Record) (s : Service S σ κ) (w : World S) : Service S σ κ × World S :=
  s.putStage (Work.accept r (s.stage w))

/-- A moment by which a call has ended, if only cancelled tasks are waited for. They begin
no more jobs than the scheduler picks. -/
def latest (now : Tick) (s : Service S σ κ) (w : World S) : Tick :=
  let timeout :=
    match s.call with
    | some (.joining _ timeout) => timeout.ticks
    | some (.working _ _ deadline) => deadline
    | _ => 0
  now + timeout + w.further * Duty.patience s.state + s.tasks.foldl
    (fun n t => n + ((t.job.bind fun job => Duty.wake? job s.state).getD 0)
      + Duty.patience s.state) 0

end Work
end Service
end Telemetry
