import Mathlib.Algebra.Order.BigOperators.Group.List
import Mathlib.Algebra.Order.Group.Nat
import Telemetry.Logger.Basic
import Telemetry.Proofs.Sink.Settling

/-! Everything that can be done with the channels of a logger at a moment gets done.
A channel adds to what its sink leaves to be done the end of its own call. What one
channel leaves to be done does not depend on what others do, so a round through all
channels leaves less as soon as one of them has something to do. -/
namespace Telemetry
open Service (isReached isReached_earliest isReached_foldl)

variable {S α : Type} [Sink S α]

namespace Channel

/-- How a channel is left by a look at its call. A call ends with its result or at its
deadline, and then at most the reporter and the log tell of it. -/
inductive Concluded (now : Tick) (c : Channel α) (w : World S) : Channel α × World S → Prop
  | idle (free : c.call = none) : Concluded now c w (c, w)
  | waits {call : Call} (calls : c.call = some call) (running : Sink.result? c.sink = none)
    (early : now < call.deadline) : Concluded now c w (c, w)
  | ends {call : Call} {reporter : FailureReport} {w' : World S} (calls : c.call = some call)
    (ready : (Sink.result? c.sink).isSome = true ∨ call.deadline ≤ now)
    (store : w'.store = w.store) :
    Concluded now c w ({ c.endCall with reporter := reporter }, w')

theorem report_store (c : Channel α) (operation error : String) (w : World S) :
    ∃ reporter w', c.report operation error w = ({ c with reporter := reporter }, w') ∧
      w'.store = w.store ∧ w'.wall = w.wall := by
  refine ⟨_, _, rfl, ?_⟩
  split <;> exact ⟨rfl, rfl⟩

theorem conclude_cases (now : Tick) (c : Channel α) (w : World S) :
    Concluded now c w (c.conclude now w) := by
  unfold conclude
  cases calls : c.call with
  | none => exact .idle calls
  | some call =>
    simp only
    cases result : Sink.result? c.sink with
    | some result' =>
      have ready : (Sink.result? c.sink).isSome = true ∨ call.deadline ≤ now :=
        .inl (by rw [result]; rfl)
      cases result' with
      | ok _ => exact .ends calls ready rfl
      | error fault =>
        obtain ⟨reporter, w', same, store, _⟩ :=
          c.endCall.report_store call.operation fault.message w
        simp only [same]
        exact .ends calls ready store
    | none =>
      simp only
      split
      · rename_i late
        obtain ⟨reporter, w', same, store, _⟩ := c.endCall.report_store call.operation
          (Fault.timeout call.timeout).message w
        rw [same]
        exact .ends calls (.inr late) store
      · rename_i early
        exact .waits calls result (Nat.lt_of_not_le early)

variable [Settling S α]

def load (now : Tick) (c : Channel α) : Nat :=
  Settling.load now c.sink + c.call.isSome.toNat

/-- The call has something to do or can end. -/
def CallReady (now : Tick) (c : Channel α) : Prop :=
  c.call.isSome = true ∧ (Settling.callReady now c.sink ∨
    (Sink.result? c.sink).isSome = true ∨ isReached now (c.call.map (·.deadline)) = true)

theorem pollTasks_load (now : Tick) {c : Channel α} (w : World S) (good : Settling.Good c.sink) :
    load now (c.pollTasks now w).1 ≤ load now c ∧
      (Settling.tasksReady now c.sink → load now (c.pollTasks now w).1 < load now c) := by
  refine ⟨Nat.add_le_add_right (Settling.tasks_le now w good) _, fun ready => ?_⟩
  exact Nat.add_lt_add_right (Settling.tasks_fall w good ready) _

variable [Resting S α]

/-- The sink is as it should be, and has no call where the channel has none. -/
structure Sound (c : Channel α) : Prop where
  good : Settling.Good c.sink
  free : c.call = none → Resting.Free c.sink

theorem sound_endCall {c : Channel α} (good : Settling.Good c.sink) : c.endCall.Sound :=
  ⟨Resting.good_endCall good, fun _ => Resting.free_endCall c.sink⟩

theorem sound_conclude (now : Tick) {c : Channel α} (w : World S) (sound : c.Sound) :
    (c.conclude now w).1.Sound := by
  have cases_ := c.conclude_cases now w
  generalize c.conclude now w = p at cases_ ⊢
  cases cases_ with
  | idle => exact sound
  | waits => exact sound
  | ends =>
    obtain ⟨good, free⟩ := sound_endCall sound.good
    exact ⟨good, free⟩

/-- A look at a call leaves no more to be done, and less where the call ends. -/
theorem conclude_load (now : Tick) (c : Channel α) (w : World S) :
    load now (c.conclude now w).1 ≤ load now c ∧
      (∀ call, c.call = some call →
        (Sink.result? c.sink).isSome = true ∨ call.deadline ≤ now →
        load now (c.conclude now w).1 < load now c) := by
  have cases_ := c.conclude_cases now w
  generalize c.conclude now w = p at cases_ ⊢
  cases cases_ with
  | idle free =>
    refine ⟨Nat.le_refl _, fun call calls => ?_⟩
    rw [free] at calls
    cases calls
  | waits calls running early =>
    refine ⟨Nat.le_refl _, fun call calls' ready => ?_⟩
    obtain rfl := Option.some.inj (calls.symm.trans calls')
    rcases ready with ended | late
    · rw [running] at ended
      cases ended
    · exact absurd late (Nat.not_le_of_lt early)
  | ends calls =>
    have less : Settling.load now (Sink.endCall c.sink) + 0 < load now c := by
      have fewer := Resting.endCall_le now c.sink
      simp only [load, calls, Option.isSome_some, Bool.toNat_true]
      omega
    exact ⟨Nat.le_of_lt less, fun _ _ _ => less⟩

theorem sound_pollCall (now : Tick) {c : Channel α} (w : World S) (sound : c.Sound) :
    (c.pollCall now w).1.Sound := by
  unfold pollCall
  split
  · rename_i calls
    refine sound_conclude now _ ⟨Settling.good_pollCall now w sound.good, fun rest => ?_⟩
    have rest : c.call = none := rest
    rw [rest] at calls
    cases calls
  · exact sound

theorem sound_pollTasks (now : Tick) {c : Channel α} (w : World S) (sound : c.Sound) :
    (c.pollTasks now w).1.Sound :=
  ⟨Settling.good_pollTasks now w sound.good, fun rest =>
    (Resting.free_pollTasks now w).mpr (sound.free rest)⟩

omit [Resting S α] in
theorem pollCall_idle {now : Tick} {c : Channel α} (w : World S) (idle : ¬ c.CallReady now) :
    c.pollCall now w = (c, w) := by
  unfold pollCall
  split
  · rename_i calls
    have quiet : ¬ Settling.callReady now c.sink := fun ready => idle ⟨calls, .inl ready⟩
    rw [Settling.call_idle w quiet]
    have cases_ := c.conclude_cases now w
    show c.conclude now w = (c, w)
    generalize c.conclude now w = p at cases_ ⊢
    cases cases_ with
    | idle => rfl
    | waits => rfl
    | ends calls ready =>
      refine absurd ⟨by rw [calls]; rfl, .inr ?_⟩ idle
      exact ready.imp_right fun late => by simpa [calls, isReached] using late
  · rfl

theorem pollCall_load (now : Tick) {c : Channel α} (w : World S) (sound : c.Sound) :
    load now (c.pollCall now w).1 ≤ load now c ∧
      (c.CallReady now → load now (c.pollCall now w).1 < load now c) := by
  unfold pollCall
  split
  · rename_i calls
    obtain ⟨call, same⟩ := Option.isSome_iff_exists.mp calls
    by_cases ready : Settling.callReady now c.sink
    · have fewer := Settling.call_falls w sound.good ready
      have after :=
        ({ c with sink := (Sink.pollCall now c.sink w).1 } : Channel α).conclude_load now
        (Sink.pollCall now c.sink w).2
      have less : load now ({ c with sink := (Sink.pollCall now c.sink w).1 } : Channel α) <
          load now c := Nat.add_lt_add_right fewer _
      have result := Nat.lt_of_le_of_lt after.1 less
      exact ⟨Nat.le_of_lt result, fun _ => result⟩
    · rw [Settling.call_idle w ready]
      have after := c.conclude_load now w
      refine ⟨after.1, fun callReady => after.2 call same ?_⟩
      refine (callReady.2.resolve_left ready).imp_right fun late => ?_
      simpa [same, isReached] using late
  · rename_i rest
    exact ⟨Nat.le_refl _, fun ready => absurd ready.1 rest⟩

end Channel

namespace Logger

section Each

variable {f : Channel α → World S → Channel α × World S}

omit [Sink S α] in
theorem eachChannel_forall {G : World S → Prop} {P Q : Channel α → Prop}
    (keeps : ∀ c w, G w → P c → Q (f c w).1 ∧ G (f c w).2) {l : List (Channel α)} {w : World S}
    (around : G w) (all : ∀ c ∈ l, P c) :
    (∀ c ∈ (eachChannel f l w).1, Q c) ∧ G (eachChannel f l w).2 := by
  induction l generalizing w with
  | nil => exact ⟨nofun, around⟩
  | cons c rest ih =>
    obtain ⟨here, around'⟩ := keeps c w around (all c List.mem_cons_self)
    obtain ⟨later, around''⟩ := ih around' fun d there => all d (List.mem_cons_of_mem _ there)
    exact ⟨List.forall_mem_cons.mpr ⟨here, later⟩, around''⟩

omit [Sink S α] in
theorem eachChannel_idle {l : List (Channel α)} (w : World S)
    (same : ∀ c ∈ l, ∀ w, f c w = (c, w)) : eachChannel f l w = (l, w) := by
  induction l with
  | nil => rfl
  | cons c rest ih =>
    have later := ih fun d there => same d (List.mem_cons_of_mem _ there)
    simp only [eachChannel, same c List.mem_cons_self, later]

omit [Sink S α] in
/-- Where no channel grows the sum of all does not, and it falls where one falls. -/
theorem eachChannel_sum {m : Channel α → Nat} {P ready : Channel α → Prop}
    (falls : ∀ c w, P c → m (f c w).1 ≤ m c ∧ (ready c → m (f c w).1 < m c))
    {l : List (Channel α)} (w : World S) (all : ∀ c ∈ l, P c) :
    ((eachChannel f l w).1.map m).sum ≤ (l.map m).sum ∧
      ((∃ c ∈ l, ready c) → ((eachChannel f l w).1.map m).sum < (l.map m).sum) := by
  induction l generalizing w with
  | nil => exact ⟨Nat.le_refl _, nofun⟩
  | cons c rest ih =>
    obtain ⟨here, fewer⟩ := falls c w (all c List.mem_cons_self)
    obtain ⟨later, less⟩ := ih (f c w).2 fun d there => all d (List.mem_cons_of_mem _ there)
    simp only [eachChannel, List.map_cons, List.sum_cons]
    refine ⟨Nat.add_le_add here later, ?_⟩
    rintro ⟨d, member, ready⟩
    rcases List.mem_cons.mp member with rfl | there
    · exact Nat.add_lt_add_of_lt_of_le (fewer ready) later
    · exact Nat.add_lt_add_of_le_of_lt here (less ⟨d, there, ready⟩)

end Each

theorem isReached_due (now : Tick) (l : Logger α) :
    isReached now (Sink.due l) = l.channels.any fun c => isReached now c.due := by
  have parts := isReached_foldl now Channel.due l.channels none
  have start : isReached now none = false := rfl
  rwa [start, Bool.false_or] at parts

instance [Settling S α] [Resting S α] : Settling S (Logger α) where
  Good l := ∀ c ∈ l.channels, c.Sound
  load now l := (l.channels.map (Channel.load now)).sum
  load_le now l := by
    refine List.sum_le_sum fun c _ => ?_
    exact Nat.add_le_add (Settling.load_le now c.sink) (Bool.toNat_le _)
  callReady now l := ∃ c ∈ l.channels, c.CallReady now
  tasksReady now l := ∃ c ∈ l.channels, Settling.tasksReady now c.sink
  ready {now l} sound reached := by
    rw [isReached_due, List.any_eq_true] at reached
    obtain ⟨c, member, reached⟩ := reached
    rw [Channel.due, isReached_earliest, Bool.or_eq_true] at reached
    rcases reached with sinkDue | late
    · rcases Settling.ready (sound c member).good sinkDue with callReady | tasksReady
      · refine .inl ⟨c, member, ?_, .inl callReady⟩
        rw [Option.isSome_iff_ne_none]
        exact fun rest => Resting.free_idle ((sound c member).free rest) callReady
      · exact .inr ⟨c, member, tasksReady⟩
    · refine .inl ⟨c, member, ?_, .inr (.inr late)⟩
      rw [Option.isSome_iff_ne_none]
      intro rest
      rw [rest] at late
      cases late
  call_idle {now l} w idle := by
    have same := eachChannel_idle (f := Channel.pollCall now) (l := l.channels) w fun c member w =>
      Channel.pollCall_idle w fun ready => idle ⟨c, member, ready⟩
    show Logger.each (Channel.pollCall now) l w = (l, w)
    rw [Logger.each, same]
  call_falls {now l} w sound ready :=
    (eachChannel_sum (P := Channel.Sound) (fun _ w sound => Channel.pollCall_load now w sound) w
      sound).2 ready
  tasks_le now l w sound :=
    (eachChannel_sum (P := Channel.Sound)
      (fun _ w sound => Channel.pollTasks_load now w sound.good) w sound).1
  tasks_fall {now l} w sound ready :=
    (eachChannel_sum (P := Channel.Sound)
      (fun _ w sound => Channel.pollTasks_load now w sound.good) w sound).2 ready
  good_pollCall now l w sound :=
    (eachChannel_forall (G := fun _ => True)
      (fun _ w _ sound => ⟨Channel.sound_pollCall now w sound, trivial⟩) trivial sound).1
  good_pollTasks now l w sound :=
    (eachChannel_forall (G := fun _ => True)
      (fun _ w _ sound => ⟨Channel.sound_pollTasks now w sound, trivial⟩) trivial sound).1

end Logger
end Telemetry
