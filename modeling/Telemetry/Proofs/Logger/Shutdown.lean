import Telemetry.Proofs.Logger.Holdings
import Telemetry.Proofs.Sink.Draining

/-! A stop of all channels that nothing hinders.
Each channel gives the stop of its sink up a second after the time limit. Where whatever
the sinks wait for comes before that moment, no stop is given up, and so none leaves
anything behind. -/
namespace Telemetry
open LawfulStorage (content?)
open Service (isReached isReached_iff isReached_earliest)

variable {S α : Type} [Storage S] [Sink S α] [Settling S α] [Resting S α] [Clearable S α]
  {P : S → Prop} {limit now : Tick} {w : World S}

namespace Channel

/-- A stop that nothing hinders is under way until a moment, or has ended. -/
structure Clearing (limit : Tick) (c : Channel α) : Prop where
  clears : Clearable.Clearing limit c.sink
  limited : ∀ call, c.call = some call → call.deadline = limit
  busy : c.call ≠ none → ¬ Resting.Free c.sink

/-- The same after a look at the call, which is gone where it has ended. -/
structure Cleared (limit : Tick) (c : Channel α) : Prop extends Clearing limit c where
  running : c.call ≠ none → Sink.result? c.sink = none

variable {c : Channel α}

/-- Before the deadline a call ends with its result only. -/
theorem cleared_conclude (early : now < limit) (works : P w.store) (clearing : Clearing limit c) :
    Cleared limit (c.conclude now w).1 ∧ P (c.conclude now w).2.store := by
  have cases_ := c.conclude_cases now w
  generalize c.conclude now w = p at cases_ ⊢
  cases cases_ with
  | idle free => exact ⟨⟨clearing, fun calls => absurd free calls⟩, works⟩
  | waits _ running => exact ⟨⟨clearing, fun _ => running⟩, works⟩
  | ends calls ready store =>
    have late : ¬ _ ≤ now := clearing.limited _ calls ▸ Nat.not_le_of_lt early
    refine ⟨⟨⟨Clearable.endCall (ready.resolve_right late) clearing.clears, nofun, ?_⟩, ?_⟩, ?_⟩
    · exact fun calls => absurd rfl calls
    · exact fun calls => absurd rfl calls
    · rw [store]
      exact works

theorem cleared_beginStop (reliable : Storage.Reliable P) (now : Tick) (timeout : Span)
    (works : P w.store) (free : Clearable.Unhindered (now + timeout.ticks + margin) c.sink) :
    Cleared (now + timeout.ticks + margin) (c.beginStop now timeout w).1 ∧
      P (c.beginStop now timeout w).2.store := by
  obtain ⟨works', clears⟩ := Clearable.beginStop reliable now timeout works free
  have early : now < now + timeout.ticks + margin := by
    simp only [margin, Tick] at *
    omega
  have clearing : Clearing (now + timeout.ticks + margin)
      (({ c with sink := (Sink.beginStop now timeout c.sink w).1 } : Channel α).expecting "stop"
        now timeout) :=
    ⟨clears, fun call same => Option.some.inj same ▸ rfl,
      fun _ => Resting.busy_beginStop now timeout c.sink w⟩
  exact cleared_conclude early works' clearing

theorem cleared_pollCall (reliable : Storage.Reliable P) (early : now < limit) (works : P w.store)
    (cleared : Cleared limit c) :
    Cleared limit (c.pollCall now w).1 ∧ P (c.pollCall now w).2.store := by
  unfold pollCall
  split
  · rename_i calls
    obtain ⟨works', clears⟩ := Clearable.pollCall reliable now works cleared.clears
    have busy := cleared.busy (Option.isSome_iff_ne_none.mp calls)
    have clearing : Clearing limit { c with sink := (Sink.pollCall now c.sink w).1 } :=
      ⟨clears, cleared.limited, fun _ => Resting.busy_pollCall now w busy⟩
    exact cleared_conclude early works' clearing
  · exact ⟨cleared, works⟩

theorem cleared_pollTasks (reliable : Storage.Reliable P) (now : Tick) (works : P w.store)
    (cleared : Cleared limit c) :
    Cleared limit (c.pollTasks now w).1 ∧ P (c.pollTasks now w).2.store := by
  obtain ⟨works', clears⟩ := Clearable.pollTasks reliable now works cleared.clears
  refine ⟨⟨⟨clears, cleared.limited, fun calls free => ?_⟩, fun calls => ?_⟩, works'⟩
  · exact cleared.busy calls ((Resting.free_pollTasks now w).mp free)
  · exact (Resting.result_pollTasks now c.sink w).trans (cleared.running calls)

omit [Storage S] [Settling S α] [Resting S α] [Clearable S α] in
theorem asleep_sink (quiet : isReached now c.due = false) :
    isReached now (Sink.due c.sink) = false := by
  rw [due, isReached_earliest, Bool.or_eq_false_iff] at quiet
  exact quiet.1

theorem Cleared.next (cleared : Cleared limit c) (quiet : isReached now c.due = false)
    (calls : c.call ≠ none) (early : now < limit) : ∃ t, c.due = some t ∧ t < limit := by
  obtain ⟨t, wakes, before⟩ := Clearable.next cleared.clears (asleep_sink quiet)
    (cleared.running calls) (cleared.busy calls) early
  have reached : isReached t c.due = true := by
    rw [due, isReached_earliest, wakes]
    simp [isReached]
  obtain ⟨t', due, first⟩ := isReached_iff.mp reached
  exact ⟨t', due, Nat.lt_of_le_of_lt first before⟩

end Channel

namespace Logger

variable {l : Logger α}

omit [Storage S] [Settling S α] [Resting S α] [Clearable S α] in
theorem exists_call (busy : ¬ l.isIdle = true) : ∃ c ∈ l.channels, c.call ≠ none := by
  simpa [isIdle] using busy

omit [Storage S] [Settling S α] [Resting S α] [Clearable S α] in
theorem call_of_idle (idle : l.isIdle = true) : ∀ c ∈ l.channels, c.call = none := by
  simpa [isIdle] using idle

omit [Storage S] [Settling S α] [Resting S α] [Clearable S α] in
theorem asleep_channel (quiet : isReached now (Sink.due l) = false) :
    ∀ c ∈ l.channels, isReached now c.due = false := by
  rw [isReached_due, List.any_eq_false] at quiet
  exact fun c member => Bool.eq_false_iff.mpr (quiet c member)

omit [Storage S] [Settling S α] [Resting S α] [Clearable S α] in
/-- No deadline of a call comes after the latest moment of the logger. -/
theorem deadline_le_latest (now : Tick) {c : Channel α} {call : Channel.Call}
    (member : c ∈ l.channels) (calls : c.call = some call) :
    call.deadline ≤ Sink.latest now l w := by
  have grows (rest : List (Channel α)) (start : Tick) :
      start ≤ rest.foldl (fun t c => max t ((c.call.map (·.deadline)).getD now)) start := by
    induction rest generalizing start with
    | nil => exact Nat.le_refl _
    | cons d rest ih => exact Nat.le_trans (Nat.le_max_left _ _) (ih _)
  have covers (rest : List (Channel α)) (start : Tick) (there : c ∈ rest) :
      call.deadline ≤ rest.foldl (fun t c => max t ((c.call.map (·.deadline)).getD now)) start := by
    induction rest generalizing start with
    | nil => cases there
    | cons d rest ih =>
      rcases List.mem_cons.mp there with rfl | later
      · refine Nat.le_trans ?_ (grows rest _)
        simp only [calls, Option.map_some, Option.getD_some]
        exact Nat.le_max_right _ _
      · exact ih _ later
  exact covers l.channels now member

variable [LawfulStorage S] [Custodian S α] {before : String → Option String}
  {labels : List ((Record → Bool) × Custodian.Terms α)} {records : List (Instant × Record)}

/-- What is known of a logger as long as it stops and nothing hinders that. -/
structure Closing (P : S → Prop) (before : String → Option String)
    (labels : List ((Record → Bool) × Custodian.Terms α)) (records : List (Instant × Record))
    (limit : Tick) (l : Logger α) (w : World S) : Prop where
  cleared : ∀ c ∈ l.channels, c.Cleared limit
  works : P w.store
  holds : l.Holds before labels records w

theorem closing_beginStop (reliable : Storage.Reliable P) (now : Tick) (timeout : Span)
    (apart : Apart labels) (idle : l.isIdle = true) (works : P w.store)
    (free : ∀ c ∈ l.channels, Clearable.Unhindered (now + timeout.ticks + Channel.margin) c.sink)
    (holds : l.Holds before labels records w) :
    Closing P before labels records (now + timeout.ticks + Channel.margin)
      (Sink.beginStop now timeout l w).1 (Sink.beginStop now timeout l w).2 := by
  obtain ⟨cleared, works'⟩ := eachChannel_forall (G := fun w : World S => P w.store)
    (fun _ _ works free => Channel.cleared_beginStop reliable now timeout works free) works free
  exact ⟨cleared, works', holds.each
    (fun _ _ rest holds => Channel.moved_begin (.stop now timeout) nofun (fun _ _ => rfl) "stop" now
      timeout rest holds) apart (call_of_idle idle)⟩

/-- Everything is done that can be done at a moment, and the stop goes on as it should. -/
theorem closing_settle (reliable : Storage.Reliable P) (apart : Apart labels) (early : now < limit)
    (closing : Closing P before labels records limit l w) :
    let p := Session.settle now (l, w)
    Closing P before labels records limit p.1 p.2 ∧ isReached now (Sink.due p.1) = false := by
  refine (Session.settle_spec now (I := Closing P before labels records limit)
    (fun l w closing => ?_) (fun l w closing => ?_) closing.holds.sound closing).2
  · obtain ⟨cleared, works⟩ := eachChannel_forall (G := fun w : World S => P w.store)
      (fun _ _ works cleared => Channel.cleared_pollCall reliable early works cleared)
      closing.works closing.cleared
    exact ⟨cleared, works, closing.holds.op_quietly (.callOn now) nofun apart⟩
  · obtain ⟨cleared, works⟩ := eachChannel_forall (G := fun w : World S => P w.store)
      (fun _ _ works cleared => Channel.cleared_pollTasks reliable now works cleared)
      closing.works closing.cleared
    exact ⟨cleared, works, closing.holds.op_quietly (.tasksOn now) nofun apart⟩

omit [LawfulStorage S] [Custodian S α] in
theorem next_of_busy (cleared : ∀ c ∈ l.channels, c.Cleared limit)
    (quiet : isReached now (Sink.due l) = false) (busy : ¬ l.isIdle = true) (early : now < limit) :
    ∃ t, Sink.due l = some t ∧ now < t ∧ t < limit := by
  obtain ⟨c, member, calls⟩ := exists_call busy
  obtain ⟨t, due, before⟩ := (cleared c member).next (asleep_channel quiet c member) calls early
  have reached : isReached t (Sink.due l) = true := by
    rw [isReached_due, List.any_eq_true]
    exact ⟨c, member, isReached_iff.mpr ⟨t, due, Nat.le_refl _⟩⟩
  obtain ⟨t', due', first⟩ := isReached_iff.mp reached
  refine ⟨t', due', ?_, Nat.lt_of_le_of_lt first before⟩
  simpa [due', isReached] using quiet

/-- A stop that nothing hinders succeeds before it would be given up, and nothing is left to
be written or sent then. What the channels hold in their files is still all that was brought. -/
theorem stop_unhindered (reliable : Storage.Reliable P) (timeout : Span) (apart : Apart labels)
    (idle : l.isIdle = true) (works : P w.store)
    (free : ∀ c ∈ l.channels, Clearable.Unhindered (now + timeout.ticks + Channel.margin) c.sink)
    (holds : l.Holds before labels records w) :
    ∃ t l' w', Session.stop timeout ⟨l, w, now⟩ = (some (.ok ()), ⟨l', w', t⟩) ∧
      now ≤ t ∧ t < now + timeout.ticks + Channel.margin ∧
      l'.Holds before labels records w' ∧ ∀ c ∈ l'.channels, Clearable.Drained c.sink := by
  have early : now < now + timeout.ticks + Channel.margin := by
    simp only [Channel.margin, Tick] at *
    omega
  generalize sum : now + timeout.ticks + Channel.margin = limit at free early ⊢
  have begun := closing_beginStop reliable now timeout apart idle works (sum ▸ free) holds
  rw [sum] at begun
  obtain ⟨closing, quiet⟩ := closing_settle reliable apart early begun
  have inTime : (Session.settle now (Sink.beginStop now timeout l w)).1.isIdle = true ∨
      limit ≤ Sink.latest now (Session.settle now (Sink.beginStop now timeout l w)).1
        (Session.settle now (Sink.beginStop now timeout l w)).2 := by
    refine or_iff_not_imp_left.mpr fun busy => ?_
    obtain ⟨c, member, calls⟩ := exists_call busy
    obtain ⟨call, same⟩ := Option.ne_none_iff_exists'.mp calls
    rw [← (closing.cleared c member).limited call same]
    exact deadline_le_latest now member same
  obtain ⟨t, l', w', result, ⟨before_t, closing', quiet', _⟩, order, ended, whole⟩ :=
    Session.await_spec (p := Sink.beginStop now timeout l w)
      (I := fun t m u => t < limit ∧ Closing P before labels records limit m u ∧
        isReached t (Sink.due m) = false ∧ (m.isIdle = true ∨
          limit ≤ Sink.latest now (Session.settle now (Sink.beginStop now timeout l w)).1
        (Session.settle now (Sink.beginStop now timeout l w)).2))
      ⟨early, closing, quiet, inTime⟩
      fun t m u kept running => by
        obtain ⟨early, closing, quiet, inTime⟩ := kept
        have busy : ¬ m.isIdle = true := fun idle => by simp [Sink.result?, idle] at running
        have inTime := inTime.resolve_left busy
        obtain ⟨t', due, after, before_t'⟩ := next_of_busy closing.cleared quiet busy early
        obtain ⟨closing', quiet'⟩ := closing_settle reliable apart before_t' closing
        exact ⟨t', due, after, Nat.le_trans (Nat.le_of_lt before_t') inTime, before_t', closing',
          quiet', .inr inTime⟩
  have idle' : l'.isIdle = true := by
    by_contra busy
    simp [Sink.result?, busy] at ended
  have success : result = .ok () := by
    simpa [Sink.result?, idle', eq_comm] using ended
  have drained (c : Channel α) (member : c ∈ l'.channels) : Clearable.Drained c.endCall.sink := by
    have free := (closing'.holds.holds c member).free (call_of_idle idle' c member)
    have same : c.endCall.sink = c.sink := Resting.endCall_free free
    rw [same]
    exact Clearable.drained (closing'.cleared c member).clears
      (Channel.asleep_sink (asleep_channel quiet' c member)) free
  refine ⟨t, Sink.endCall l', w', success ▸ whole, order, before_t, closing'.holds.endCall,
    fun c member => ?_⟩
  obtain ⟨c', there, rfl⟩ := List.mem_map.mp member
  exact drained c' there

end Logger
end Telemetry
