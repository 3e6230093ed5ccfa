import Telemetry.Proofs.Sink.Stopping
import Telemetry.Proofs.Stream.Conservation

/-! The turns of the jobs of a stream.
The line holds the tickets of the jobs under way, so whoever is first in it can go on or
waits for an answer, and nobody waits for a ticket that is gone. All answers together take
no longer than the replies that lie ahead. -/
namespace Telemetry.Stream.Queue
open Service (Action Continues Discreet Keeps KeepsAt Leaves Paced Punctual Use isReached leftLoad)

/-- How long all replies together take that lie ahead. -/
def delays (q : Queue) : Nat :=
  (q.endpoint.replies.map (·.delay)).sum

/-- A job can go on once where it waits for its turn; with an answer it may have to wait
for its turn again. -/
def transmissionLoad (now : Tick) (job : Transmission) : Nat :=
  match job.sending with
  | none => 1
  | some s => if s.wake ≤ now then 2 else 0

theorem replied_delays (q : Queue) : q.replied.delays + q.endpoint.reply.1.delay = q.delays := by
  unfold replied delays Endpoint.reply
  cases ahead : q.endpoint.replies with
  | nil => rw [ahead]; rfl
  | cons reply rest => exact Nat.add_comm _ _

theorem batch_length_pos {q : Queue} (filled : q.bodies ≠ []) : 0 < q.batch.length := by
  unfold batch
  split
  · rename_i empty
    exact absurd empty filled
  · exact Nat.succ_pos _

/-- What a job with a ticket leaves when it was run: nothing in the line when it has
ended, its ticket otherwise; and a send that waits takes a reply from those ahead. A job
that sent nothing is the slack in what is left to be done. -/
structure Sent (now : Tick) (ticket slack : Nat) (q : Queue)
    (p : Progress Transmission × Queue) : Prop where
  settings : p.2.settings = q.settings
  load : p.2.bodies.length + leftLoad (transmissionLoad now) p.1 ≤ q.bodies.length + slack
  delays : p.2.delays ≤ q.delays
  finished : ∀ result, p.1 = .finished result → ∀ rest, q.turns.Perm (ticket :: rest) →
    p.2.turns.Perm rest
  waiting : ∀ job, p.1 = .waiting job → job.ticket = ticket ∧
    (∀ rest, q.turns.Perm (ticket :: rest) → p.2.turns.Perm (ticket :: rest)) ∧
    ∀ s, job.sending = some s → s.wake + p.2.delays ≤ now + q.delays

theorem Sent.stays {now : Tick} {ticket : Nat} {q : Queue} :
    Sent now ticket 1 q (.waiting ⟨ticket, none⟩, q) where
  settings := rfl
  load := Nat.le_refl _
  delays := Nat.le_refl _
  finished := nofun
  waiting := by
    rintro job same
    cases same
    exact ⟨rfl, fun _ line => line, nofun⟩

theorem leave_turns {q : Queue} {ticket : Nat} {rest : List Nat}
    (line : q.turns.Perm (ticket :: rest)) : (q.leave ticket).turns.Perm rest := by
  have erased := line.erase ticket
  rwa [List.erase_cons_head] at erased

theorem requeue_turns {q : Queue} {ticket : Nat} {rest : List Nat}
    (line : q.turns.Perm (ticket :: rest)) : (q.requeue ticket).turns.Perm (ticket :: rest) :=
  (List.perm_append_singleton _ _).trans ((leave_turns line).cons _)

/-- Whose turn it is not, sends nothing. -/
def slack (q : Queue) (ticket : Nat) : Nat :=
  if q.isTurn ticket then 0 else 1

theorem slack_le (q : Queue) (ticket : Nat) : q.slack ticket ≤ 1 := by
  unfold slack
  split <;> decide

namespace Sent

variable {now : Tick} {ticket slack : Nat} {q : Queue}

theorem idle : Sent now ticket slack q (.finished (.ok ()), q.leave ticket) where
  settings := rfl
  load := Nat.le_add_right _ _
  delays := Nat.le_refl _
  finished _ _ _ line := leave_turns line
  waiting := nofun

/-- A send that takes its time ends when the reply says that takes as long. -/
theorem delayed (slow : 0 < q.endpoint.reply.1.delay) :
    Sent now ticket slack q (.waiting ⟨ticket, some ⟨q.batch, q.endpoint.reply.1.accepts,
      now + q.endpoint.reply.1.delay⟩⟩, q.replied) where
  settings := rfl
  load := by
    have later : ¬ now + q.endpoint.reply.1.delay ≤ now := by lia
    simp only [leftLoad, transmissionLoad, if_neg later]
    exact Nat.le_add_right _ _
  delays := by
    have taken := q.replied_delays
    lia
  finished := nofun
  waiting := by
    rintro job same
    cases same
    refine ⟨rfl, fun _ line => line, fun s under => ?_⟩
    cases under
    have taken := q.replied_delays
    show now + q.endpoint.reply.1.delay + q.replied.delays ≤ now + q.delays
    lia

/-- What is done behind a batch that is accepted at once: the batch makes up for the slack. -/
theorem accepted {slack' : Nat} {p : Progress Transmission × Queue} (filled : q.bodies ≠ [])
    (few : slack' ≤ 1)
    (sent : Sent now ticket slack' ((q.replied.answered true q.batch).requeue ticket) p) :
    Sent now ticket slack q p where
  settings := sent.settings
  load := by
    have load := sent.load
    have bodies : ((q.replied.answered true q.batch).requeue ticket).bodies =
        q.bodies.drop q.batch.length := rfl
    have taken := batch_length_pos filled
    have waiting := List.length_pos_iff.mpr filled
    rw [bodies, List.length_drop] at load
    omega
  delays := by
    have taken := q.replied_delays
    exact Nat.le_trans sent.delays (Nat.le.intro taken)
  finished result done rest line := sent.finished result done rest (requeue_turns line)
  waiting job waits := by
    obtain ⟨same, stays, wake⟩ := sent.waiting job waits
    refine ⟨same, fun rest line => stays rest (requeue_turns line), fun s under => ?_⟩
    exact Nat.le_trans (wake s under) (Nat.add_le_add_left (Nat.le.intro q.replied_delays) now)

/-- A batch that is refused at once ends the job, and stays where it is. -/
theorem refused : Sent now ticket slack q
    (.finished (.error refusal), (q.replied.answered false q.batch).leave ticket) where
  settings := rfl
  load := Nat.le_add_right _ _
  delays := Nat.le.intro q.replied_delays
  finished _ _ _ line := leave_turns line
  waiting := nofun

end Sent

theorem sendAll_sent (now : Tick) (ticket limit : Nat) (q : Queue) :
    Sent now ticket (if limit = 0 then 1 else q.slack ticket) q (q.sendAll now ticket limit) := by
  induction limit generalizing q with
  | zero => exact .stays
  | succ limit ih =>
    rw [if_neg (Nat.succ_ne_zero limit)]
    have outcome := q.sendAll_sends now ticket limit
    generalize q.sendAll now ticket (limit + 1) = p at outcome ⊢
    cases outcome with
    | passed turn =>
      rw [slack, turn]
      exact .stays
    | idle => exact .idle
    | delayed _ _ slow => exact .delayed slow
    | accepted _ filled =>
      refine .accepted filled ?_ (ih _)
      split
      · exact Nat.le_refl _
      · exact slack_le _ _
    | refused => exact .refused

theorem send_sent (now : Tick) (ticket : Nat) (q : Queue) :
    Sent now ticket (q.slack ticket) q (q.send now ticket) := by
  have sent := sendAll_sent now ticket (q.bodies.length + 1) q
  rwa [if_neg (Nat.succ_ne_zero _)] at sent

theorem answered_same (q : Queue) (accepted : Bool) (batch : List String) :
    (q.answered accepted batch).settings = q.settings ∧
      (q.answered accepted batch).delays = q.delays ∧
      (q.answered accepted batch).turns = q.turns ∧
      (q.answered accepted batch).bodies.length ≤ q.bodies.length := by
  unfold answered
  cases accepted with
  | true => exact ⟨rfl, rfl, rfl, List.length_drop ▸ Nat.sub_le _ _⟩
  | false => exact ⟨rfl, rfl, rfl, Nat.le_refl _⟩

theorem begin_sent (now : Tick) (q : Queue) :
    Sent now q.nextTicket 1
      { q with
        turns := q.turns ++ [q.nextTicket], nextTicket := q.nextTicket + 1 } (q.begin now) := by
  have sent := send_sent now q.nextTicket
    { q with turns := q.turns ++ [q.nextTicket], nextTicket := q.nextTicket + 1 }
  exact { sent with load := Nat.le_trans sent.load (Nat.add_le_add_left (slack_le _ _) _) }

/-- A job that goes on leaves less to be done than it was. -/
theorem resume_sent {now : Tick} {job : Transmission} {q : Queue}
    (reached : isReached now (wake? job q) = true) :
    ∃ slack < transmissionLoad now job, Sent now job.ticket slack q (q.resume now job) := by
  unfold resume
  cases under : job.sending with
  | none =>
    have turn : q.isTurn job.ticket = true := by
      by_contra other
      simp [wake?, under, other, isReached] at reached
    have sent := send_sent now job.ticket q
    refine ⟨0, by simp [transmissionLoad, under], ?_⟩
    rwa [slack, if_pos turn] at sent
  | some s =>
    have come : s.wake ≤ now := by simpa [wake?, under, isReached] using reached
    obtain ⟨settings, delays, turns, shorter⟩ := q.answered_same s.accepts s.batch
    refine ⟨1, by simp [transmissionLoad, under, come], ?_⟩
    simp only
    split
    · have sent := send_sent now job.ticket ((q.answered s.accepts s.batch).requeue job.ticket)
      have few := slack_le ((q.answered s.accepts s.batch).requeue job.ticket) job.ticket
      have line (rest : List Nat) (before : q.turns.Perm (job.ticket :: rest)) :
          ((q.answered s.accepts s.batch).requeue job.ticket).turns.Perm (job.ticket :: rest) :=
        requeue_turns (turns ▸ before)
      refine ⟨sent.settings.trans settings, ?_, Nat.le_trans sent.delays (Nat.le_of_eq delays),
        fun result done rest before => sent.finished result done rest (line rest before),
        fun job' waits => ?_⟩
      · have load := sent.load
        have bodies : ((q.answered s.accepts s.batch).requeue job.ticket).bodies =
          (q.answered s.accepts s.batch).bodies := rfl
        rw [bodies] at load
        omega
      · obtain ⟨same, stays, wake⟩ := sent.waiting job' waits
        exact ⟨same, fun rest before => stays rest (line rest before), fun s' sending =>
          Nat.le_trans (wake s' sending) (Nat.add_le_add_left (Nat.le_of_eq delays) now)⟩
    · refine ⟨settings, Nat.le_succ_of_le shorter, Nat.le_of_eq delays,
        fun _ _ rest before => leave_turns (turns ▸ before), nofun⟩

theorem resume_settings (now : Tick) (job : Transmission) (q : Queue) :
    (q.resume now job).2.settings = q.settings := by
  unfold resume
  split
  · exact (send_sent now job.ticket q).settings
  · rename_i s _
    have same := (q.answered_same s.accepts s.batch).1
    simp only
    split
    · exact (send_sent now job.ticket _).settings.trans same
    · exact same

variable {S : Type}

theorem accept_settings (r : Record) (g : Stage S Queue) :
    (accept r g).state.settings = g.state.settings := by
  rw [accept_state]
  split <;> rfl

theorem accept_turns (r : Record) (g : Stage S Queue) :
    (accept r g).state.turns = g.state.turns := by
  rw [accept_state]
  split <;> rfl

instance : Paced S Queue Transmission where
  load := transmissionLoad
  load_le now job := by
    unfold transmissionLoad
    split
    · decide
    · split <;> decide
  load_pos {now job q} reached := by
    obtain ⟨slack, less, _⟩ := resume_sent reached
    exact Nat.zero_lt_of_lt less
  begin_load now g := (begin_sent now g.state).load
  resume_load {now job g} reached := by
    obtain ⟨slack, less, sent⟩ := resume_sent reached
    exact Nat.lt_of_le_of_lt sent.load (Nat.add_lt_add_left less _)
  abandon_load _ _ := rfl
  notice_load _ := rfl
  accept_period r g := by
    have taken : Work.accept r g = accept r g := rfl
    simp only [taken, Duty.period, accept_settings]
  period_same :=
    Service.Untouched.map (fun t : Settings => some t.intervalMs) {
      begin := fun now g => (begin_sent now g.state).settings
      resume := fun now job g => resume_settings now job g.state
      abandon := fun _ _ => rfl
      notice := fun _ => rfl }

instance : Discreet S Queue Transmission where
  begin _ _ := ⟨rfl, nofun⟩
  resume _ _ _ := ⟨rfl, nofun⟩
  taken _ := nofun

theorem Sent.goes_on {now : Tick} {ticket slack : Nat} {q : Queue} {jobs : List Transmission}
    {f : Queue → Progress Transmission × Queue} {g : Stage S Queue}
    (sent : Sent now ticket slack q (f g.state))
    (line : q.turns.Perm (ticket :: jobs.map (·.ticket))) :
    Continues (fun (g : Stage S Queue) (jobs : List Transmission) =>
      g.state.turns.Perm (jobs.map (·.ticket))) (fun _ _ => True) jobs (onState f g) := by
  unfold onState
  cases ran : f g.state with
  | mk progress q' =>
    rw [ran] at sent
    cases progress with
    | finished result => exact ⟨trivial, sent.finished result rfl _ line⟩
    | waiting job =>
      obtain ⟨same, stays, _⟩ := sent.waiting job rfl
      show q'.turns.Perm (job.ticket :: jobs.map (·.ticket))
      rw [same]
      exact stays _ line

/-- A job is waited for, or one may be begun that will be. -/
def Awaits (more : Nat) (marks : List Bool) : Prop :=
  0 < more ∨ true ∈ marks

theorem Awaits.of_imp {more : Nat} {marks marks' : List Bool} (awaits : Awaits more marks)
    (waited : true ∈ marks → true ∈ marks') : Awaits more marks' :=
  Or.imp_right waited awaits

/-- The line holds the tickets of the jobs, and as long as one of them is waited for, or may
be, all answers come by a moment. -/
structure AnswersBy (more : Nat) (limit now : Tick) (q : Queue)
    (jobs : List (Bool × Transmission)) : Prop where
  line : q.turns.Perm (jobs.map (·.2.ticket))
  ahead : Awaits more (jobs.map (·.1)) → now + q.delays ≤ limit
  answers : Awaits more (jobs.map (·.1)) → ∀ other ∈ jobs, ∀ s, other.2.sending = some s →
    s.wake + q.delays ≤ limit

namespace AnswersBy

variable {more : Nat} {limit now : Tick} {q : Queue} {jobs : List (Bool × Transmission)}

theorem run {ticket slack : Nat} {mark : Bool} {f : Queue → Progress Transmission × Queue}
    {g : Stage S Queue} (sent : Sent now ticket slack q (f g.state))
    (line : q.turns.Perm (ticket :: jobs.map (·.2.ticket)))
    (ahead : Awaits more (mark :: jobs.map (·.1)) → now + q.delays ≤ limit)
    (answers : Awaits more (mark :: jobs.map (·.1)) → ∀ other ∈ jobs, ∀ s,
      other.2.sending = some s → s.wake + q.delays ≤ limit) :
    Leaves (fun g jobs => AnswersBy more limit now g.state jobs) mark jobs (onState f g) := by
  unfold onState
  cases ran : f g.state with
  | mk progress q' =>
    rw [ran] at sent
    have fewer : q'.delays ≤ q.delays := sent.delays
    have old (awaits : Awaits more (mark :: jobs.map (·.1))) (other : Bool × Transmission)
        (member : other ∈ jobs) (s : Sending) (sending : other.2.sending = some s) :
        s.wake + q'.delays ≤ limit :=
      Nat.le_trans (Nat.add_le_add_left fewer _) (answers awaits other member s sending)
    have now_ahead (awaits : Awaits more (mark :: jobs.map (·.1))) : now + q'.delays ≤ limit :=
      Nat.le_trans (Nat.add_le_add_left fewer _) (ahead awaits)
    cases progress with
    | finished result =>
      have still (awaits : Awaits more (jobs.map (·.1))) : Awaits more (mark :: jobs.map (·.1)) :=
        awaits.of_imp (List.mem_cons_of_mem _)
      exact ⟨sent.finished result rfl _ line, fun awaits => now_ahead (still awaits),
        fun awaits => old (still awaits)⟩
    | waiting job =>
      obtain ⟨same, stays, wake⟩ := sent.waiting job rfl
      refine ⟨by simpa [same] using stays _ line, now_ahead,
        fun awaits other member s sending => ?_⟩
      rcases List.mem_cons.mp member with rfl | there
      · exact Nat.le_trans (wake s sending) (ahead awaits)
      · exact old awaits other there s sending

theorem keepsAt (limit now : Tick) :
    KeepsAt (S := S) now (fun more g jobs => AnswersBy more limit now g.state jobs) where
  perm more {g jobs jobs'} same kept := by
    have back (awaits : Awaits more (jobs'.map (·.1))) : Awaits more (jobs.map (·.1)) :=
      awaits.of_imp (same.map (·.1)).mem_iff.mpr
    exact ⟨kept.line.trans (same.map _), fun awaits => kept.ahead (back awaits),
      fun awaits other member => kept.answers (back awaits) other (same.mem_iff.mpr member)⟩
  surroundings same _ kept := by rwa [same]
  notice kept := kept
  begin {more g jobs} kept := by
    have back (awaits : Awaits more (false :: jobs.map (·.1))) : Awaits more (jobs.map (·.1)) :=
      awaits.of_imp fun member => by simpa using member
    refine run (begin_sent now g.state) ?_ (fun awaits => kept.ahead (back awaits))
      fun awaits => kept.answers (back awaits)
    exact (List.perm_append_singleton _ _).trans (kept.line.cons _)
  begin_told {more g jobs} kept := by
    have awaits : Awaits (more + 1) (jobs.map (·.1)) := .inl (Nat.succ_pos more)
    refine run (begin_sent now g.state) ?_ (fun _ => kept.ahead awaits)
      fun _ => kept.answers awaits
    exact (List.perm_append_singleton _ _).trans (kept.line.cons _)
  resume {more g mark job jobs} kept reached := by
    obtain ⟨slack, _, sent⟩ := resume_sent reached
    exact run sent kept.line kept.ahead fun awaits other member =>
      kept.answers awaits other (List.mem_cons_of_mem _ member)

/-- Whoever is first in the line can go on or waits for an answer. -/
theorem first (answersBy : AnswersBy more limit now q jobs) {job : Transmission}
    (waited : (true, job) ∈ jobs) :
    ∃ other ∈ jobs, wake? other.2 q = some 0 ∨
      ∃ s, other.2.sending = some s ∧ wake? other.2 q = some s.wake := by
  have tickets := answersBy.line
  cases turns : q.turns with
  | nil =>
    rw [turns, List.nil_perm, List.map_eq_nil_iff] at tickets
    rw [tickets] at waited
    cases waited
  | cons ticket rest =>
    have member : ticket ∈ jobs.map (·.2.ticket) := by
      rw [← tickets.mem_iff, turns]
      exact List.mem_cons_self
    obtain ⟨other, there, same⟩ := List.mem_map.mp member
    refine ⟨other, there, ?_⟩
    cases sending : other.2.sending with
    | none =>
      left
      simp [wake?, sending, isTurn, turns, same]
    | some s =>
      right
      exact ⟨s, rfl, by simp [wake?, sending]⟩

theorem awaits_of_mem {job : Transmission} (more : Nat) (waited : (true, job) ∈ jobs) :
    Awaits more (jobs.map (·.1)) :=
  .inr (List.mem_map_of_mem waited)

end AnswersBy

instance : Punctual S Queue Transmission where
  EndBy more limit now g jobs := AnswersBy more limit now g.state jobs
  keepsAt := AnswersBy.keepsAt
  next {more limit now g jobs job} ends waited := by
    have awaits := AnswersBy.awaits_of_mem more waited
    obtain ⟨other, member, first⟩ := ends.first waited
    rcases first with turn | ⟨s, sending, wake⟩
    · exact ⟨other, member, 0, Nat.zero_le _, turn⟩
    · have bound := ends.answers awaits other member s sending
      exact ⟨other, member, s.wake, by lia, wake⟩
  later {more limit now t g jobs job} ends waited order quiet := by
    have awaits := AnswersBy.awaits_of_mem more waited
    refine ⟨ends.line, fun _ => ?_, ends.answers⟩
    obtain ⟨other, member, first⟩ := ends.first waited
    rcases first with turn | ⟨s, sending, wake⟩
    · have before : t ≤ 0 := quiet other member 0 turn
      have bound := ends.ahead awaits
      lia
    · have before : t ≤ s.wake := quiet other member s.wake wake
      have bound := ends.answers awaits other member s sending
      lia
  patient {more more' limit limit' now g jobs} ends enough covers := by
    have patience : Duty.patience g.state = g.state.delays := rfl
    refine ⟨ends.line, fun _ => by lia, fun _ other member s sending => ?_⟩
    have bound := covers other member
    have wake : wake? other.2 g.state = some s.wake := by simp [wake?, sending]
    have same : Duty.wake? other.2 g.state = some s.wake := wake
    rw [same, patience, Option.getD_some] at bound
    lia

/-- Whatever is done, the line holds the tickets of the jobs. -/
theorem keeps_line : Keeps (S := S)
    (fun (g : Stage S Queue) (jobs : List Transmission) =>
      g.state.turns.Perm (jobs.map (·.ticket)))
    (fun g jobs => g.state.turns.Perm (jobs.map (·.ticket))) (fun _ _ => True) where
  perm same line := line.trans (same.map _)
  surroundings state _ line := by rwa [state]
  notice line := line
  begin {g jobs} now line := by
    have sent := begin_sent now g.state
    have entered : (g.state.turns ++ [g.state.nextTicket]).Perm
        (g.state.nextTicket :: jobs.map (·.ticket)) :=
      (List.perm_append_singleton _ _).trans (line.cons _)
    exact sent.goes_on entered
  resume {g job jobs} now line reached := by
    obtain ⟨slack, _, sent⟩ := resume_sent reached
    exact sent.goes_on line
  abandon line := leave_turns line

/-- After every use of a stream the line holds the tickets of the jobs under way. -/
theorem run_line {q : Queue} (empty : q.turns = []) (w : World S) (actions : List Action) :
    let u : Use S Queue Transmission := (Use.ofState q w).run actions
    u.state.turns.Perm (u.jobs.map (·.ticket)) := by
  have start : q.turns.Perm [] := List.Perm.of_eq empty
  let unseen (_ : Use S Queue Transmission) (_ : Record) : List Unit := []
  let Line (_ : List Unit) (g : Stage S Queue) (jobs : List Transmission) : Prop :=
    g.state.turns.Perm (jobs.map (·.ticket))
  have record (h : List Unit) (u : Use S Queue Transmission) (r : Record)
      (line : Line h u.stage u.jobs) : Line (h ++ unseen u r) (Work.accept r u.stage) u.jobs := by
    have taken : Work.accept r u.stage = accept r u.stage := rfl
    show (Work.accept r u.stage).state.turns.Perm _
    rw [taken, accept_turns]
    exact line
  have keeps (h : List Unit) : Service.Keeps (Line h) (Line h) fun _ _ => True := keeps_line
  exact (@Use.run_of_keeps S Queue _ _ _ _ Unit unseen Line keeps record q w start actions).1

end Telemetry.Stream.Queue
