import Telemetry.Proofs.Sink.Keeping
import Telemetry.Proofs.Stream.Ledger

/-! A stream loses no envelope, sends none twice and keeps their order.
Only the job that is first in the line takes envelopes off the queue, and only those
of the batch that it sent, so a batch that was copied before a send still stands at
the front when the answer comes, whatever was put in or given up meanwhile. -/
namespace Telemetry.Stream
open Service (Use Keeps Continues)

namespace Queue

variable {S : Type} {settings : Settings} {machine : String} {outcomes : List (Option String)}

/-- What holds of a queue and the jobs under way on it. -/
def Sound (settings : Settings) (machine : String) (outcomes : List (Option String)) (q : Queue)
    (jobs : List Transmission) : Prop :=
  Ledger settings machine outcomes q ∧ Line q jobs

/-- What a job that has been run leaves behind. -/
def Left (settings : Settings) (machine : String) (outcomes : List (Option String))
    (jobs : List Transmission) : Progress Transmission × Queue → Prop
  | (.finished result, q) =>
    (result = .ok () → q.bodies = []) ∧ Sound settings machine outcomes q jobs
  | (.waiting job, q) => Sound settings machine outcomes q (job :: jobs)

/-- The queue when the reply to a send was taken from those ahead. -/
def replied (q : Queue) : Queue :=
  { q with endpoint := q.endpoint.reply.2 }

/-- What a job comes to that may send at least one more batch: it is not its turn, nothing
waits, the answer takes its time, or the batch is accepted or refused at once. -/
inductive Sends (now : Tick) (ticket limit : Nat) (q : Queue) :
    Progress Transmission × Queue → Prop
  | passed (turn : q.isTurn ticket = false) : Sends now ticket limit q (.waiting ⟨ticket, none⟩, q)
  | idle (turn : q.isTurn ticket = true) (empty : q.bodies = []) :
      Sends now ticket limit q (.finished (.ok ()), q.leave ticket)
  | delayed (turn : q.isTurn ticket = true) (filled : q.bodies ≠ [])
      (slow : 0 < q.endpoint.reply.1.delay) :
      Sends now ticket limit q
        (.waiting ⟨ticket, some ⟨q.batch, q.endpoint.reply.1.accepts,
          now + q.endpoint.reply.1.delay⟩⟩, q.replied)
  | accepted (turn : q.isTurn ticket = true) (filled : q.bodies ≠ [])
      (accepts : q.endpoint.reply.1.accepts = true) :
      Sends now ticket limit q
        (((q.replied.answered true q.batch).requeue ticket).sendAll now ticket limit)
  | refused (turn : q.isTurn ticket = true) (filled : q.bodies ≠ [])
      (refuses : q.endpoint.reply.1.accepts = false) :
      Sends now ticket limit q
        (.finished (.error refusal), (q.replied.answered false q.batch).leave ticket)

theorem sendAll_sends (now : Tick) (ticket limit : Nat) (q : Queue) :
    Sends now ticket limit q (q.sendAll now ticket (limit + 1)) := by
  unfold sendAll
  cases turn : q.isTurn ticket with
  | false => exact .passed turn
  | true =>
    simp only [Bool.not_true, Bool.false_eq_true, if_false]
    split_ifs with empty slow accepts
    · exact .idle turn empty
    · exact .delayed turn empty slow
    · exact .accepted turn empty accepts
    · exact .refused turn empty (Bool.eq_false_iff.mpr accepts)

theorem replied_deliveries (q : Queue) : q.replied.endpoint.deliveries = q.endpoint.deliveries := by
  unfold replied Endpoint.reply
  split <;> rfl

theorem Ledger.replied {q : Queue} (ledger : Ledger settings machine outcomes q) :
    Ledger settings machine outcomes q.replied := by
  unfold Queue.replied Endpoint.reply
  split
  · exact ledger
  · exact ledger.turns _ q.turns q.nextTicket

theorem sendAll_left (now : Tick) {ticket : Nat} (limit : Nat) {q : Queue}
    {jobs : List Transmission} (sound : Sound settings machine outcomes q jobs)
    (apart : ticket ∉ jobs.map (·.ticket)) (issued : ticket < q.nextTicket) :
    Left settings machine outcomes jobs (q.sendAll now ticket limit) := by
  induction limit generalizing q with
  | zero =>
    obtain ⟨ledger, line⟩ := sound
    exact ⟨ledger, line.cons apart issued fun s under => by cases under⟩
  | succ limit ih =>
    obtain ⟨ledger, line⟩ := sound
    have outcome := q.sendAll_sends now ticket limit
    generalize q.sendAll now ticket (limit + 1) = p at outcome ⊢
    cases outcome with
    | passed => exact ⟨ledger, line.cons apart issued fun s under => by cases under⟩
    | idle turn empty => exact ⟨fun _ => empty, ledger.turns _ _ _, line.leave apart⟩
    | delayed turn =>
      refine ⟨ledger.replied, Line.cons ⟨line.distinct, line.issued, line.sending⟩ apart issued
        fun s under => ?_⟩
      cases under
      exact ⟨turn, q.batch_prefix⟩
    | accepted turn =>
      have done := ledger.replied.answered true q.batch_prefix
      exact ih ⟨done.turns _ _ _, line.of_idle (line.idle turn apart) rfl⟩ issued
    | refused turn =>
      have done := ledger.replied.answered false q.batch_prefix
      exact ⟨fun failed => (by cases failed), done.turns _ _ _,
        line.of_idle (line.idle turn apart) rfl⟩

theorem begin_left (now : Tick) {q : Queue} {jobs : List Transmission}
    (sound : Sound settings machine outcomes q jobs) :
    Left settings machine outcomes jobs (q.begin now) := by
  obtain ⟨ledger, line⟩ := sound
  refine sendAll_left now _ ⟨ledger.turns _ _ _, line.issue⟩ ?_ (Nat.lt_succ_self _)
  intro member
  obtain ⟨job, under, same⟩ := List.mem_map.mp member
  exact absurd (line.issued job under) (by omega)

theorem resume_left (now : Tick) {job : Transmission} {q : Queue} {jobs : List Transmission}
    (sound : Sound settings machine outcomes q (job :: jobs)) :
    Left settings machine outcomes jobs (q.resume now job) := by
  obtain ⟨ledger, line⟩ := sound
  have apart := line.apart
  have issued := line.issued job List.mem_cons_self
  unfold resume
  cases under : job.sending with
  | none => exact sendAll_left now _ ⟨ledger, line.tail⟩ apart issued
  | some s =>
    obtain ⟨turn, front⟩ := line.sending job List.mem_cons_self s under
    have idle := line.tail.idle turn apart
    have done := ledger.answered s.accepts front
    have kept : Sound settings machine outcomes ((q.answered s.accepts s.batch).requeue job.ticket)
        jobs := ⟨done.turns _ _ _, line.tail.of_idle idle (by cases s.accepts <;> rfl)⟩
    have issued' : job.ticket < ((q.answered s.accepts s.batch).requeue job.ticket).nextTicket := by
      cases s.accepts <;> exact issued
    simp only
    split
    · exact sendAll_left now _ kept apart issued'
    · exact ⟨fun failed => (by cases failed), done.turns _ _ _, kept.2.of_idle idle rfl⟩

/-- What becomes of a record: its envelope is put in, or it is given up. -/
def outcome (q : Queue) (now : Instant) (r : Record) : Option String :=
  if q.isFull then none else q.countExpected.body? now r

theorem accept_state (r : Record) (g : Stage S Queue) :
    (accept r g).state =
      match g.state.outcome g.world.wall r with
      | none => g.state.countExpected.countDropped
      | some body => { g.state.countExpected with bodies := g.state.bodies ++ [body] } := by
  have same : g.state.countExpected.isFull = g.state.isFull := rfl
  unfold accept outcome
  simp only [same]
  cases g.state.countExpected.body? g.world.wall r with
  | none =>
    rw [ite_self]
  | some body =>
    cases g.state.isFull with
    | true => rfl
    | false => rfl

theorem body?_cases (q : Queue) (now : Instant) (r : Record) :
    (q.body? now r = none ∧ q.settings.maxBytes < (q.bodyOf now true r).utf8ByteSize) ∨
      ∃ exceeded, q.body? now r = some (q.bodyOf now exceeded r) := by
  unfold body?
  simp only
  split_ifs with whole bare
  · exact .inr ⟨false, rfl⟩
  · exact .inr ⟨true, rfl⟩
  · exact .inl ⟨rfl, Nat.lt_of_not_le bare⟩

/-- A record is given up for one of two reasons. -/
theorem accept_dropped (r : Record) {g : Stage S Queue}
    (changed : (accept r g).state.counts.dropped ≠ g.state.counts.dropped) :
    g.state.isFull = true ∨ g.state.settings.maxBytes <
      (g.state.countExpected.bodyOf g.world.wall true r).utf8ByteSize := by
  have settings : g.state.countExpected.settings = g.state.settings := rfl
  cases full : g.state.isFull with
  | true => exact .inl rfl
  | false =>
    right
    obtain ⟨_, large⟩ | ⟨exceeded, put⟩ := body?_cases g.state.countExpected g.world.wall r
    · rwa [settings] at large
    · have became : g.state.outcome g.world.wall r =
          some (g.state.countExpected.bodyOf g.world.wall exceeded r) := by
        rw [outcome, full, if_neg Bool.false_ne_true, put]
      rw [accept_state, became] at changed
      exact absurd rfl changed

theorem accept_line (r : Record) {g : Stage S Queue} {jobs : List Transmission}
    (line : Line g.state jobs) : Line (accept r g).state jobs := by
  rw [accept_state]
  split
  · exact ⟨line.distinct, line.issued, line.sending⟩
  · exact line.enter _ _

theorem outcome_accounted {q : Queue} (ledger : Ledger settings machine outcomes q) {now : Instant}
    {r : Record} {body : String} (became : q.outcome now r = some body) :
    Accounted settings machine body := by
  have diagnostics : q.settings.diagnostics = settings.diagnostics := by
    rw [ledger.settings_same, Settings.withCapacity]
  have balance : q.counts.expected + 1 =
      q.counts.transmitted + q.counts.dropped + q.bodies.length + 1 := by
    rw [ledger.expected]
  have taken : q.countExpected.body? now r = some body := by
    unfold outcome at became
    split at became
    · cases became
    · exact became
  obtain ⟨lost, _⟩ | ⟨exceeded, put⟩ := body?_cases q.countExpected now r
  · rw [lost] at taken
    cases taken
  · obtain rfl : body = q.countExpected.bodyOf now exceeded r :=
      Option.some.inj (taken.symm.trans put)
    refine ⟨now, r, exceeded, _, _, q.counts.failed, _, _, balance, ?_, ?_⟩
    · rw [← diagnostics, ← ledger.machine_same]
      rfl
    · rw [← diagnostics]
      exact q.countExpected.dimensionsNamed_bufferInfo now exceeded r

theorem accept_ledger (r : Record) {g : Stage S Queue}
    (ledger : Ledger settings machine outcomes g.state) :
    Ledger settings machine (outcomes ++ [g.state.outcome g.world.wall r]) (accept r g).state := by
  rw [accept_state]
  cases became : g.state.outcome g.world.wall r with
  | none => exact ledger.giveUp
  | some body =>
    refine ledger.put (outcome_accounted ledger became) (Nat.lt_of_not_le fun full => ?_)
    have isFull : g.state.isFull = true := decide_eq_true full
    simp [outcome, isFull] at became

theorem Left.onState {jobs : List Transmission} {f : Queue → Progress Transmission × Queue}
    {g : Stage S Queue} (left : Left settings machine outcomes jobs (f g.state)) :
    Continues (fun g jobs => Sound settings machine outcomes g.state jobs)
      (fun result g => result = .ok () → g.state.bodies = []) jobs (onState f g) := by
  unfold Queue.onState
  cases ran : f g.state with
  | mk progress q =>
    rw [ran] at left
    cases progress with
    | finished result => exact left
    | waiting job => exact left

/-- Jobs keep the ledger and the line, and one that ends well leaves nothing waiting. -/
theorem keeps_sound (settings : Settings) (machine : String) (outcomes : List (Option String)) :
    Keeps (S := S) (fun g jobs => Sound settings machine outcomes g.state jobs)
      (fun g jobs => Sound settings machine outcomes g.state jobs)
      (fun result g => result = .ok () → g.state.bodies = []) where
  perm same sound := ⟨sound.1, sound.2.perm same⟩
  surroundings state _ sound := by rwa [state]
  notice sound := sound
  begin now sound := (begin_left now sound).onState
  resume now sound _ := (resume_left now sound).onState
  abandon sound := ⟨sound.1.turns _ _ _, sound.2.tail.leave sound.2.apart⟩

/-- Whatever is done with a stream, and however its endpoint answers: the envelopes put
in are those accepted and those that wait, all in order, and the counts agree. A record
is given up only for a full queue or a size that is too large even without properties.
Once a flush or a stop says that it succeeded, nothing waits. -/
theorem envelopes_conserved (settings : Settings) (machine : String) (replies : List Reply)
    (w : World S) (actions : List Service.Action) :
    let start : Use S Queue Transmission :=
      .ofState (.ofSettings settings machine (.ofReplies replies)) w
    let now := start.run actions
    let outcomes :=
      start.seen (Use.atRecords fun u r => [u.state.outcome u.world.wall r]) actions
    Ledger settings machine outcomes now.state ∧
      (∀ a, (now.step a).1.state.counts.dropped ≠ now.state.counts.dropped →
        ∃ r, a = .log r ∧ (now.state.isFull = true ∨
          now.state.settings.maxBytes <
            (now.state.countExpected.bodyOf now.world.wall true r).utf8ByteSize)) ∧
      ∀ a, (now.step a).2 = some (.returned (.ok ())) → (now.step a).1.state.bodies = [] := by
  intro start now outcomes
  have keeps := keeps_sound (S := S) settings machine
  have fresh : Sound settings machine [] (.ofSettings settings machine (.ofReplies replies)) [] :=
    ⟨.empty .., ⟨List.nodup_nil, by simp, by simp⟩⟩
  have record (h : List (Option String)) (u : Use S Queue Transmission) (r : Record)
      (sound : Sound settings machine h u.stage.state u.jobs) :
      Sound settings machine (h ++ [u.state.outcome u.world.wall r]) (accept r u.stage).state
        u.jobs :=
    ⟨accept_ledger r sound.1, accept_line r sound.2⟩
  obtain ⟨sound, live⟩ := Use.run_of_keeps keeps record fresh actions
  refine ⟨sound.1, fun a changed => ?_, fun a done => ?_⟩
  · by_cases entered : ∃ r, a = .log r
    · obtain ⟨r, rfl⟩ := entered
      have after : (now.step (.log r)).1.stage = accept r now.stage := now.stage_log r
      have given := accept_dropped r (g := now.stage)
      simp only [← after, Use.stage_state, Use.stage_world] at given
      exact ⟨r, rfl, given changed⟩
    · have noRecord (r : Record) : a ≠ .log r := fun same => entered ⟨r, same⟩
      have next := ((keeps _).step live noRecord sound).kept
      exact absurd (next.1.dropped.trans sound.1.dropped.symm) changed
  · obtain ⟨emptied, _⟩ | ⟨⟨timeout, failed⟩, _⟩ := (keeps _).returned live sound done
    · exact emptied rfl
    · cases failed

end Queue
end Telemetry.Stream
