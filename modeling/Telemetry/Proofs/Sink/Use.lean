import Telemetry.Sink.Service

/-! A sink in use: whatever may happen to it, in any order.
Several calls may be under way, of which one is in hand and the others are put
aside, and each task goes on by itself. Every action hands over the moment of the
timer, so nothing is laid down about who is run when. A run is a list of actions. -/
namespace Telemetry

def Call.job? {κ : Type} : Call κ → Option κ
  | .working job _ _ => some job
  | .joining .. | .ended _ => none

instance decidableEqExcept {ε α : Type} [DecidableEq ε] [DecidableEq α] : DecidableEq (Except ε α)
  | .ok a, .ok b => decidable_of_iff (a = b) ⟨congrArg _, Except.ok.inj⟩
  | .error a, .error b => decidable_of_iff (a = b) ⟨congrArg _, Except.error.inj⟩
  | .ok _, .error _ => .isFalse fun same => by cases same
  | .error _, .ok _ => .isFalse fun same => by cases same

namespace Service

inductive Action
  | log (r : Record)
  | start (inRuntime : Bool) (now : Tick)
  | flush (now : Tick) (timeout : Span)
  | stop (now : Tick) (timeout : Span)
  /-- The call in hand goes on. -/
  | callOn (now : Tick)
  /-- Whoever made the call in hand drops it. -/
  | drop
  /-- One of the calls put aside is taken in hand. -/
  | turnTo (place : Nat)
  /-- One of the tasks goes on. -/
  | taskOn (place : Nat) (now : Tick)
  | clocks (wall : Instant) (steady : Nat)

theorem record_or_not (a : Action) : (∃ r, a = .log r) ∨ ∀ r, a ≠ .log r := by
  cases a with
  | log r => exact .inl ⟨r, rfl⟩
  | _ => exact .inr fun _ same => by cases same

inductive Ending
  | returned (result : Except Fault Unit)
  /-- The call was dropped while its job was under way. -/
  | dropped
deriving DecidableEq

/-- A call ended before its job did. -/
def Ending.isAbandoned : Ending → Bool
  | .dropped | .returned (.error (.timeout _)) => true
  | .returned _ => false

/-- A sink with the calls that are put aside, in its surroundings. -/
structure Use (S σ κ : Type) where
  sink : Service S σ κ
  aside : List (Call κ)
  world : World S

namespace Use

variable {S σ κ : Type}

/-- A sink of which no use was made yet. -/
def ofState (s : σ) (w : World S) : Use S σ κ := ⟨.ofState s, [], w⟩

def calls (u : Use S σ κ) : List (Call κ) :=
  u.sink.call.toList ++ u.aside

def jobs (u : Use S σ κ) : List κ :=
  u.sink.tasks.filterMap Task.job ++ u.calls.filterMap Call.job?

def state (u : Use S σ κ) : σ := u.sink.state

def stage (u : Use S σ κ) : Stage S σ := ⟨u.sink.state, u.sink.reporter, u.world⟩

@[simp]
theorem stage_state (u : Use S σ κ) : u.stage.state = u.state := rfl

@[simp]
theorem stage_world (u : Use S σ κ) : u.stage.world = u.world := rfl

def layAside (u : Use S σ κ) : Use S σ κ :=
  { u with sink := { u.sink with call := none }, aside := u.calls }

section Step

variable [Duty σ κ] [Work S σ κ]

/-- The sink and its surroundings after an operation on them. A call that has ended
gives its result and is gone. -/
def collect (u : Use S σ κ) (p : Service S σ κ × World S) : Use S σ κ × Option Ending :=
  match p.1.result? with
  | some result => ({ u with sink := p.1.endCall, world := p.2 }, some (.returned result))
  | none => ({ u with sink := p.1, world := p.2 }, none)

def dropCall (u : Use S σ κ) : Use S σ κ × Option Ending :=
  ({ u with sink := u.sink.endCall },
    match u.sink.call with
    | some (.working ..) => some .dropped
    | _ => none)

def takeUp (u : Use S σ κ) (place : Nat) : Use S σ κ :=
  match u.calls[place]? with
  | none => u
  | some call =>
    { u with sink := { u.sink with call := some call }, aside := u.calls.eraseIdx place }

def runTask (u : Use S σ κ) (place : Nat) (now : Tick) : Use S σ κ :=
  match u.sink.tasks[place]? with
  | none => u
  | some t =>
    let (t, g) := pollTask now t u.stage
    let tasks := u.sink.tasks.take place ++ t.toList ++ u.sink.tasks.drop (place + 1)
    let (sink, world) := { u.sink with tasks := tasks }.putStage g
    { u with sink := sink, world := world }

/-- What an action leads to, and how a call ended by it. -/
def step (u : Use S σ κ) : Action → Use S σ κ × Option Ending
  | .log r =>
    let (sink, world) := u.sink.log r u.world
    ({ u with sink := sink, world := world }, none)
  | .start inRuntime now => ({ u with sink := (u.sink.start inRuntime now).2 }, none)
  | .flush now timeout => u.layAside.collect (beginFlush now timeout u.layAside.sink u.world)
  | .stop now timeout => u.layAside.collect (beginStop now timeout u.layAside.sink u.world)
  | .callOn now => u.collect (pollCall now u.sink u.world)
  | .drop => u.dropCall
  | .turnTo place => (u.takeUp place, none)
  | .taskOn place now => (u.runTask place now, none)
  | .clocks wall steady =>
    ({ u with world := { u.world with wall := wall, steady := steady } }, none)

def endings (u : Use S σ κ) (a : Action) : List Ending :=
  (u.step a).2.toList

def run (u : Use S σ κ) (actions : List Action) : Use S σ κ :=
  actions.foldl (fun v a => (v.step a).1) u

/-- What is seen on the way through a list of actions. -/
def seen {β : Type} (see : Use S σ κ → Action → List β) : Use S σ κ → List Action → List β
  | _, [] => []
  | u, a :: rest => see u a ++ seen see (u.step a).1 rest

/-- What is seen of the records that are taken in. -/
def atRecords {β : Type} (see : Use S σ κ → Record → List β) (u : Use S σ κ) : Action → List β
  | .log r => see u r
  | _ => []

/-- What a step keeps, together with what was seen until then, a run keeps. -/
theorem run_keeps {β : Type} {see : Use S σ κ → Action → List β} {I : List β → Use S σ κ → Prop}
    (step_keeps : ∀ h u a, I h u → I (h ++ see u a) (u.step a).1) (actions : List Action)
    {h : List β} {u : Use S σ κ} (start : I h u) : I (h ++ u.seen see actions) (u.run actions) := by
  induction actions generalizing h u with
  | nil => simpa [seen, run] using start
  | cons a rest ih =>
    have next := ih (step_keeps h u a start)
    simpa [seen, run, List.append_assoc] using next

theorem run_invariant {I : Use S σ κ → Prop} (step_keeps : ∀ u a, I u → I (u.step a).1)
    (actions : List Action) {u : Use S σ κ} (start : I u) : I (u.run actions) := by
  induction actions generalizing u with
  | nil => exact start
  | cons a rest ih => exact ih (step_keeps u a start)

end Step

end Use
end Service
end Telemetry
