import Telemetry.Proofs.Sink.Draining
import Telemetry.Proofs.Sink.Holdings
import Telemetry.Proofs.Stream.Turns

/-! A stream sends everything where all sends are accepted at once.
No job has an answer to wait for then, so whoever is first in the line can go on. A job
ends when nothing waits, and one that is not first leaves the rest to those before it. -/
namespace Telemetry.Stream.Queue
open LawfulStorage (content?)
open Service (Continues Draining KeepsAt Leaves LeavesCall isReached)

/-- All sends are accepted at once. -/
def Prompt (q : Queue) : Prop :=
  ∀ reply ∈ q.endpoint.replies, reply = ⟨0, true⟩

theorem Prompt.reply {q : Queue} (prompt : q.Prompt) :
    q.endpoint.reply.1 = ⟨0, true⟩ ∧ ∀ reply ∈ q.endpoint.reply.2.replies, reply = ⟨0, true⟩ := by
  unfold Endpoint.reply
  cases ahead : q.endpoint.replies with
  | nil => exact ⟨rfl, prompt⟩
  | cons reply rest =>
    unfold Prompt at prompt
    rw [ahead] at prompt
    exact ⟨prompt reply List.mem_cons_self, fun other member =>
      prompt other (List.mem_cons_of_mem _ member)⟩

/-- What a job leaves that was run: nothing waits any more, or it is not its turn. -/
structure Swept (ticket : Nat) (p : Progress Transmission × Queue) : Prop where
  prompt : p.2.Prompt
  finished : ∀ result, p.1 = .finished result → p.2.bodies = []
  waiting : ∀ job, p.1 = .waiting job → job = ⟨ticket, none⟩ ∧ p.2.isTurn ticket = false

theorem sendAll_swept (now : Tick) (ticket : Nat) {limit : Nat} {q : Queue} (prompt : q.Prompt)
    (enough : q.bodies.length < limit) : Swept ticket (q.sendAll now ticket limit) := by
  induction limit generalizing q with
  | zero => exact absurd enough (Nat.not_lt_zero _)
  | succ limit ih =>
    obtain ⟨answer, ahead⟩ := prompt.reply
    have outcome := q.sendAll_sends now ticket limit
    generalize q.sendAll now ticket (limit + 1) = p at outcome ⊢
    cases outcome with
    | passed turn =>
      refine ⟨prompt, nofun, ?_⟩
      rintro job same
      cases same
      exact ⟨rfl, turn⟩
    | idle _ empty => exact ⟨prompt, fun _ _ => empty, nofun⟩
    | delayed _ _ slow =>
      rw [answer] at slow
      exact absurd slow (Nat.lt_irrefl 0)
    | accepted _ filled =>
      refine ih ahead ?_
      show (q.bodies.drop q.batch.length).length < limit
      have taken := batch_length_pos filled
      have waiting := List.length_pos_iff.mpr filled
      rw [List.length_drop]
      omega
    | refused _ _ refuses =>
      rw [answer] at refuses
      cases refuses

theorem send_swept (now : Tick) (ticket : Nat) {q : Queue} (prompt : q.Prompt) :
    Swept ticket (q.send now ticket) :=
  sendAll_swept now ticket prompt (Nat.lt_succ_self _)

/-- The line holds the tickets of the jobs, none of which waits for an answer. With the flag
set, something is left only as long as there are jobs. -/
structure Flowing (flag : Bool) (q : Queue) (jobs : List (Bool × Transmission)) : Prop where
  prompt : q.Prompt
  line : q.turns.Perm (jobs.map (·.2.ticket))
  idle : ∀ job ∈ jobs, job.2.sending = none
  served : flag = true → jobs = [] → q.bodies = []

namespace Flowing

variable {S : Type} {flag : Bool} {now : Tick} {q : Queue} {jobs : List (Bool × Transmission)}

theorem perm {jobs' : List (Bool × Transmission)} (same : jobs.Perm jobs')
    (flowing : Flowing flag q jobs) : Flowing flag q jobs' where
  prompt := flowing.prompt
  line := flowing.line.trans (same.map _)
  idle job member := flowing.idle job (same.mem_iff.mpr member)
  served set alone := flowing.served set (List.perm_nil.mp (alone ▸ same))

theorem run {ticket slack : Nat} {P : S → Prop} {f : Queue → Progress Transmission × Queue}
    {g : Stage S Queue} (works : P g.world.store) (sent : Sent now ticket slack q (f g.state))
    (swept : Swept ticket (f g.state)) (line : q.turns.Perm (ticket :: jobs.map (·.2.ticket)))
    (idle : ∀ job ∈ jobs, job.2.sending = none) :
    (∀ mark : Bool, Leaves (fun (g : Stage S Queue) jobs => P g.world.store ∧
      Flowing true g.state jobs) mark jobs (onState f g)) ∧
    LeavesCall P (Flowing true) now jobs (onState f g) := by
  unfold onState
  cases ran : f g.state with
  | mk progress q' =>
    rw [ran] at sent swept
    cases progress with
    | finished result =>
      have flows : Flowing true q' jobs :=
        ⟨swept.prompt, sent.finished result rfl _ line, idle, fun _ _ => swept.finished result rfl⟩
      exact ⟨fun _ => ⟨works, flows⟩, works, flows⟩
    | waiting job =>
      obtain ⟨rfl, passed⟩ := swept.waiting job rfl
      obtain ⟨_, stays, _⟩ := sent.waiting ⟨ticket, none⟩ rfl
      have flows (mark : Bool) : Flowing true q' ((mark, ⟨ticket, none⟩) :: jobs) := by
        refine ⟨swept.prompt, stays _ line, fun other member => ?_, nofun⟩
        rcases List.mem_cons.mp member with rfl | old
        · rfl
        · exact idle other old
      refine ⟨fun mark => ⟨works, flows mark⟩, works, flows true, ?_⟩
      have turn : q'.isTurn ticket = false := passed
      show isReached now (wake? ⟨ticket, none⟩ q') = false
      simp [wake?, turn, isReached]

theorem weaken (flowing : Flowing true q jobs) (flag : Bool) : Flowing flag q jobs :=
  { flowing with served := fun _ => flowing.served rfl }

theorem leaves_weaken {mark : Bool} {P : S → Prop} {p : Progress Transmission × Stage S Queue}
    (leaves : Leaves (fun (g : Stage S Queue) jobs => P g.world.store ∧ Flowing true g.state jobs)
      mark jobs p) :
    Leaves (fun (g : Stage S Queue) jobs => P g.world.store ∧ Flowing flag g.state jobs)
      mark jobs p := by
  obtain ⟨progress, g⟩ := p
  cases progress with
  | finished result => exact ⟨leaves.1, leaves.2.weaken flag⟩
  | waiting job => exact ⟨leaves.1, leaves.2.weaken flag⟩

theorem begin {P : S → Prop} (now : Tick) {g : Stage S Queue} (works : P g.world.store)
    (flowing : Flowing flag g.state jobs) :
    (∀ mark : Bool, Leaves (fun (g : Stage S Queue) jobs => P g.world.store ∧
      Flowing true g.state jobs) mark jobs (onState (Queue.begin now) g)) ∧
    LeavesCall P (Flowing true) now jobs (onState (Queue.begin now) g) := by
  refine run works (begin_sent now g.state) (send_swept now _ ?_) ?_ flowing.idle
  · exact flowing.prompt
  · exact (List.perm_append_singleton _ _).trans (flowing.line.cons _)

theorem resume {P : S → Prop} {g : Stage S Queue} {mark : Bool} {job : Transmission}
    (works : P g.world.store) (flowing : Flowing flag g.state ((mark, job) :: jobs))
    (reached : isReached now (wake? job g.state) = true) :
    (∀ mark : Bool, Leaves (fun (g : Stage S Queue) jobs => P g.world.store ∧
      Flowing true g.state jobs) mark jobs (onState (fun q => q.resume now job) g)) ∧
    LeavesCall P (Flowing true) now jobs (onState (fun q => q.resume now job) g) := by
  obtain ⟨slack, _, sent⟩ := resume_sent reached
  have resting : job.sending = none := flowing.idle (mark, job) List.mem_cons_self
  have resumed : g.state.resume now job = g.state.send now job.ticket := by
    simp [Queue.resume, resting]
  refine run works sent ?_ flowing.line fun other member =>
    flowing.idle other (List.mem_cons_of_mem _ member)
  rw [resumed]
  exact send_swept now job.ticket flowing.prompt

theorem keepsAt {P : S → Prop} (now : Tick) (flag : Bool) :
    KeepsAt now (fun _ (g : Stage S Queue) (jobs : List (Bool × Transmission)) =>
      P g.world.store ∧ Flowing flag g.state jobs) where
  perm _ _ _ _ same kept := ⟨kept.1, kept.2.perm same⟩
  surroundings state store kept := by rwa [state, store]
  notice kept := kept
  begin kept := leaves_weaken ((Flowing.begin now kept.1 kept.2).1 false)
  begin_told kept := leaves_weaken ((Flowing.begin now kept.1 kept.2).1 true)
  resume kept reached := leaves_weaken ((Flowing.resume kept.1 kept.2 reached).1 _)

/-- Whoever is first in the line can go on. -/
theorem first (flowing : Flowing flag q jobs) (there : jobs ≠ []) :
    ∃ other ∈ jobs, wake? other.2 q = some 0 := by
  cases turns : q.turns with
  | nil =>
    have tickets := flowing.line
    rw [turns, List.nil_perm, List.map_eq_nil_iff] at tickets
    exact absurd tickets there
  | cons ticket rest =>
    have member : ticket ∈ jobs.map (·.2.ticket) := by
      rw [← flowing.line.mem_iff, turns]
      exact List.mem_cons_self
    obtain ⟨other, member, same⟩ := List.mem_map.mp member
    refine ⟨other, member, ?_⟩
    simp [wake?, flowing.idle other member, isTurn, turns, same]

theorem none_of_asleep (now : Tick) (flowing : Flowing flag q jobs)
    (asleep : ∀ other ∈ jobs, isReached now (wake? other.2 q) = false) : jobs = [] := by
  by_contra there
  obtain ⟨other, member, wake⟩ := flowing.first there
  have quiet := asleep other member
  simp [wake, isReached] at quiet

theorem abandon {job : Transmission} (flowing : Flowing true q ((true, job) :: jobs))
    (asleep : isReached now (wake? job q) = false) : Flowing true (q.leave job.ticket) jobs := by
  refine ⟨flowing.prompt, leave_turns flowing.line,
    fun other member => flowing.idle other (List.mem_cons_of_mem _ member), fun _ alone => ?_⟩
  subst alone
  have alone := flowing.none_of_asleep now fun other member => by
    rw [List.mem_singleton.mp member]
    exact asleep
  cases alone

end Flowing

instance {S : Type} [Storage S] : Draining S Queue Transmission where
  Drained q := q.bodies = []
  Smooth _ := Flowing
  keepsAt {_} _ _ now flag := Flowing.keepsAt now flag
  begin_call {_} _ {_ _} now {_ _} works smooth := (Flowing.begin now works smooth).2
  resume_call {_} _ {_ _ _ _ _} works smooth reached := (Flowing.resume works smooth reached).2
  abandon smooth asleep := smooth.abandon asleep
  next {limit flag q job jobs} smooth member positive := by
    obtain ⟨other, there, wake⟩ := smooth.first (List.ne_nil_of_mem member)
    exact ⟨other, there, 0, positive, wake⟩
  drained {_} now {q jobs} smooth asleep := smooth.served rfl (smooth.none_of_asleep now asleep)

section Holding

variable {S : Type}

theorem continues_beside {I : Stage S Queue → List Transmission → Prop} {R : World S → Prop}
    {Q : Except Fault Unit → Stage S Queue → Prop} {f : Queue → Progress Transmission × Queue}
    {g : Stage S Queue} {jobs : List Transmission} (beside : R g.world)
    (continues : Continues I Q jobs (onState f g)) :
    Continues (fun (g : Stage S Queue) jobs => I g jobs ∧ R g.world) (fun _ _ => True) jobs
      (onState f g) := by
  unfold onState at continues ⊢
  generalize f g.state = p at continues ⊢
  obtain ⟨progress, q⟩ := p
  cases progress with
  | finished result => exact ⟨trivial, continues.2, beside⟩
  | waiting job => exact ⟨continues, beside⟩

theorem accept_surroundings (r : Record) (g : Stage S Queue) :
    (accept r g).world.store = g.world.store ∧ (accept r g).world.wall = g.world.wall := by
  unfold accept
  simp only
  split
  · exact ⟨rfl, rfl⟩
  · split
    · simp only [Stage.report, World.report]
      split <;> exact ⟨rfl, rfl⟩
    · exact ⟨rfl, rfl⟩

instance [Storage S] [LawfulStorage S] : Holding S Queue Transmission where
  Terms := Unit
  terms _ := ()
  owns _ _ := False
  Holds _ _ q jobs _ := q.turns.Perm (jobs.map Transmission.ticket)
  frame _ line := line
  keeps _ _ m c :=
    { perm := fun same kept => ⟨keeps_line.perm same kept.1, kept.2⟩
      surroundings := fun state store kept => by rwa [state, store]
      notice := fun kept => kept
      begin := fun {g _} now kept => continues_beside
        (R := fun w => () = m ∧ ∀ path, ¬ False → content? w.store path = c path)
        kept.2 (keeps_line.begin now kept.1)
      resume := fun now kept reached => continues_beside
        (R := fun w => () = m ∧ ∀ path, ¬ False → content? w.store path = c path)
        kept.2 (keeps_line.resume now kept.1 reached)
      abandon := fun kept => ⟨keeps_line.abandon kept.1, kept.2⟩ }
  log {_ _ g _} r line := by
    have taken : Work.accept r g = accept r g := rfl
    rw [taken, accept_turns]
    exact ⟨line, rfl⟩
  accept_world r g := by
    have taken : Work.accept r g = accept r g := rfl
    rw [taken]
    exact accept_surroundings r g

end Holding

end Telemetry.Stream.Queue
