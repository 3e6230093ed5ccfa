import Mathlib.Data.List.ReduceOption
import Telemetry.Proofs.Stream.Dimensions
import Telemetry.Stream.Sink

/-! What a queue owes.
The ledger of a queue follows what became of the records, each of which was put in as
an envelope or given up: the envelopes are those that the endpoint accepted and those
that wait, and the counts tell all numbers. The line of
its jobs says that whoever has a send under way is first in the line and sends what
stands at the front of the queue. -/
namespace Telemetry.Stream

def Endpoint.accepted (e : Endpoint) : List String :=
  (e.deliveries.reverse.filter (·.accepted)).flatMap (·.bodies)

/-- How many envelopes the endpoint refused, summed over the sends. -/
def Endpoint.refused (e : Endpoint) : Nat :=
  ((e.deliveries.filter (!·.accepted)).map (·.bodies.length)).sum

/-- An envelope that tells counts tells the records before it and itself. They are written as
five numbers, and read as these and nothing else. -/
def Accounted (settings : Settings) (machine body : String) : Prop :=
  ∃ (now : Instant) (r : Record) (exceeded : Bool)
    (expected transmitted failed dropped queued : Nat),
    expected = transmitted + dropped + queued + 1 ∧
    (let info : Json := .obj [("expected", .int expected), ("transmitted", .int transmitted),
      ("failed", .int failed), ("dropped", .int dropped), ("queued", .int queued)]
    body = (envelope now machine (if settings.diagnostics then some info else none)
      exceeded r).render) ∧
    (let number (n : Nat) : Json.Document := .number (toString n).toList
    dimensionsNamed "bufferInfo" body =
      if settings.diagnostics then
        [.obj [(some "expected", number expected), (some "transmitted", number transmitted),
          (some "failed", number failed), (some "dropped", number dropped),
          (some "queued", number queued)]]
      else [])

namespace Queue

theorem fitting_prefix (room : Nat) (bodies : List String) : fitting room bodies <+: bodies := by
  induction bodies generalizing room with
  | nil => exact List.nil_prefix
  | cons body rest ih =>
    unfold fitting
    split
    · exact List.cons_prefix_cons.mpr ⟨rfl, ih _⟩
    · exact List.nil_prefix

theorem batch_prefix (q : Queue) : q.batch <+: q.bodies := by
  unfold batch
  cases q.bodies with
  | nil => exact List.nil_prefix
  | cons first rest => exact List.cons_prefix_cons.mpr ⟨rfl, fitting_prefix _ rest⟩

/-- Of the records taken in, those whose envelopes were put in are accepted or wait, the
others are counted as given up, and all counts agree. -/
structure Ledger (settings : Settings) (machine : String) (outcomes : List (Option String))
    (q : Queue) : Prop where
  settings_same : q.settings = settings.withCapacity settings.capacity
  machine_same : q.machine = machine
  order : q.endpoint.accepted ++ q.bodies = outcomes.reduceOption
  dropped : q.counts.dropped = outcomes.count none
  transmitted : q.counts.transmitted = q.endpoint.accepted.length
  failed : q.counts.failed = q.endpoint.refused
  expected : q.counts.expected = q.counts.transmitted + q.counts.dropped + q.bodies.length
  bounded : q.bodies.length ≤ max settings.capacity minCapacity
  accounted : ∀ body, some body ∈ outcomes → Accounted settings machine body

variable {settings : Settings} {machine : String} {outcomes : List (Option String)} {q : Queue}

theorem Ledger.empty (settings : Settings) (machine : String) (replies : List Reply) :
    Ledger settings machine [] (.ofSettings settings machine (.ofReplies replies)) where
  settings_same := rfl
  machine_same := rfl
  order := rfl
  dropped := rfl
  transmitted := rfl
  failed := rfl
  expected := rfl
  bounded := Nat.zero_le _
  accounted _ member := by cases member

theorem Ledger.turns (ledger : Ledger settings machine outcomes q) (replies : List Reply)
    (turns : List Nat) (nextTicket : Nat) :
    Ledger settings machine outcomes
      { q with endpoint := { q.endpoint with replies := replies }, turns := turns,
               nextTicket := nextTicket } :=
  { ledger with }

theorem accepted_answered (q : Queue) (accepted : Bool) (batch : List String) :
    (q.answered accepted batch).endpoint.accepted =
      q.endpoint.accepted ++ if accepted then batch else [] := by
  cases accepted <;>
    simp [answered, Endpoint.accepted, List.filter_append, List.flatMap_append]

theorem refused_answered (q : Queue) (accepted : Bool) (batch : List String) :
    (q.answered accepted batch).endpoint.refused =
      q.endpoint.refused + if accepted then 0 else batch.length := by
  cases accepted <;> simp [answered, Endpoint.refused, Nat.add_comm]

/-- An accepted batch from the front of the queue goes over to the accepted ones; a
refused one is counted and stays. -/
theorem Ledger.answered (ledger : Ledger settings machine outcomes q) (accepted : Bool)
    {batch : List String} (front : batch <+: q.bodies) :
    Ledger settings machine outcomes (q.answered accepted batch) := by
  obtain ⟨rest, parts⟩ := front
  have lengths : q.bodies.length = batch.length + rest.length := by
    rw [← parts, List.length_append]
  have taken := accepted_answered q accepted batch
  have refused := refused_answered q accepted batch
  have expected := ledger.expected
  have bounded := ledger.bounded
  cases accepted with
  | true =>
    have bodies : (q.answered true batch).bodies = rest := by
      show q.bodies.drop batch.length = rest
      rw [← parts, List.drop_left]
    have counts : (q.answered true batch).counts =
        { q.counts with transmitted := q.counts.transmitted + batch.length } := rfl
    rw [if_pos rfl] at taken refused
    refine { ledger with
      order := ?_, transmitted := ?_, failed := ?_, expected := ?_, bounded := ?_ }
    · rw [taken, bodies, List.append_assoc, parts, ledger.order]
    · rw [counts, taken, List.length_append, ledger.transmitted]
    · rw [counts, refused, ledger.failed, Nat.add_zero]
    · rw [counts, bodies]
      show q.counts.expected = q.counts.transmitted + batch.length + q.counts.dropped + rest.length
      omega
    · rw [bodies]
      exact Nat.le_trans (by omega) bounded
  | false =>
    have counts : (q.answered false batch).counts =
        { q.counts with failed := q.counts.failed + batch.length } := rfl
    rw [if_neg Bool.false_ne_true] at taken refused
    rw [List.append_nil] at taken
    refine { ledger with order := ?_, transmitted := ?_, failed := ?_ }
    · rw [taken]
      exact ledger.order
    · rw [counts, taken, ledger.transmitted]
    · rw [counts, refused, ledger.failed]

theorem Ledger.giveUp (ledger : Ledger settings machine outcomes q) :
    Ledger settings machine (outcomes ++ [none]) q.countExpected.countDropped := by
  have expected := ledger.expected
  refine { ledger with order := ?_, dropped := ?_, expected := ?_, accounted := ?_ }
  · rw [List.reduceOption_append, ← ledger.order]
    exact (List.append_nil _).symm
  · show q.counts.dropped + 1 = _
    rw [ledger.dropped, List.count_append, List.count_singleton_self]
  · show q.counts.expected + 1 = q.counts.transmitted + (q.counts.dropped + 1) + q.bodies.length
    omega
  · intro body member
    exact ledger.accounted body (by simpa using member)

theorem Ledger.put (ledger : Ledger settings machine outcomes q) {body : String}
    (accountsForItself : Accounted settings machine body)
      (room : q.bodies.length < q.settings.capacity) :
    Ledger settings machine (outcomes ++ [some body])
      { q.countExpected with bodies := q.bodies ++ [body] } := by
  have expected := ledger.expected
  refine { ledger with order := ?_, dropped := ?_, expected := ?_, bounded := ?_, accounted := ?_ }
  · show q.endpoint.accepted ++ (q.bodies ++ [body]) = _
    rw [List.reduceOption_append, ← ledger.order, List.append_assoc]
    rfl
  · show q.counts.dropped = _
    rw [ledger.dropped, List.count_append]
    rfl
  · show q.counts.expected + 1 =
      q.counts.transmitted + q.counts.dropped + (q.bodies ++ [body]).length
    rw [List.length_append, List.length_singleton]
    omega
  · show (q.bodies ++ [body]).length ≤ _
    rw [ledger.settings_same] at room
    rw [List.length_append, List.length_singleton]
    exact room
  · intro other member
    rcases List.mem_append.mp member with before | last
    · exact ledger.accounted other before
    · cases List.mem_singleton.mp last
      exact accountsForItself

/-- Jobs under way have tickets of their own, and one that sends is first in the line
with a batch from the front of the queue. -/
structure Line (q : Queue) (jobs : List Transmission) : Prop where
  distinct : (jobs.map (·.ticket)).Nodup
  issued : ∀ job ∈ jobs, job.ticket < q.nextTicket
  sending : ∀ job ∈ jobs, ∀ s, job.sending = some s →
    q.isTurn job.ticket = true ∧ s.batch <+: q.bodies

variable {job : Transmission} {jobs : List Transmission}

theorem isTurn_leave {ticket other : Nat} (different : other ≠ ticket)
    (first : q.isTurn other = true) : (q.leave ticket).isTurn other = true := by
  cases turns : q.turns with
  | nil => simp [isTurn, turns] at first
  | cons head rest =>
    have same : head = other := by simpa [isTurn, turns] using first
    simp [isTurn, leave, turns, same, different]

theorem Line.perm {jobs' : List Transmission} (same : jobs.Perm jobs') (line : Line q jobs) :
    Line q jobs' where
  distinct := ((same.map _).nodup_iff).mp line.distinct
  issued job member := line.issued job (same.mem_iff.mpr member)
  sending job member := line.sending job (same.mem_iff.mpr member)

theorem Line.tail (line : Line q (job :: jobs)) : Line q jobs where
  distinct := (List.nodup_cons.mp line.distinct).2
  issued other member := line.issued other (List.mem_cons_of_mem _ member)
  sending other member := line.sending other (List.mem_cons_of_mem _ member)

theorem Line.apart (line : Line q (job :: jobs)) : job.ticket ∉ jobs.map (·.ticket) :=
  (List.nodup_cons.mp line.distinct).1

theorem Line.idle (line : Line q jobs) {ticket : Nat} (turn : q.isTurn ticket = true)
    (apart : ticket ∉ jobs.map (·.ticket)) : ∀ job ∈ jobs, job.sending = none := by
  intro job member
  cases under : job.sending with
  | none => rfl
  | some s =>
    obtain ⟨first, _⟩ := line.sending job member s under
    have same : job.ticket = ticket := by
      simp only [isTurn, beq_iff_eq] at first turn
      exact Option.some.inj (first.symm.trans turn)
    exact absurd (same ▸ List.mem_map_of_mem member) apart

theorem Line.of_idle {q' : Queue} (line : Line q jobs) (idle : ∀ job ∈ jobs, job.sending = none)
    (tickets : q'.nextTicket = q.nextTicket) : Line q' jobs := by
  refine ⟨line.distinct, fun job member => tickets ▸ line.issued job member, ?_⟩
  intro job member s under
  rw [idle job member] at under
  cases under

theorem Line.leave (line : Line q jobs) {ticket : Nat} (apart : ticket ∉ jobs.map (·.ticket)) :
    Line (q.leave ticket) jobs := by
  refine ⟨line.distinct, line.issued, fun job member s under => ?_⟩
  obtain ⟨first, front⟩ := line.sending job member s under
  refine ⟨isTurn_leave (fun same => ?_) first, front⟩
  exact apart (same ▸ List.mem_map_of_mem member)

theorem Line.cons (line : Line q jobs) (apart : job.ticket ∉ jobs.map (·.ticket))
    (issued : job.ticket < q.nextTicket)
    (sending : ∀ s, job.sending = some s → q.isTurn job.ticket = true ∧ s.batch <+: q.bodies) :
    Line q (job :: jobs) := by
  refine ⟨List.nodup_cons.mpr ⟨apart, line.distinct⟩, ?_, ?_⟩
  · intro other member
    rcases List.mem_cons.mp member with rfl | rest
    · exact issued
    · exact line.issued other rest
  · intro other member
    rcases List.mem_cons.mp member with rfl | rest
    · exact sending
    · exact line.sending other rest

/-- Envelopes that are put behind the others leave the batches at the front. -/
theorem Line.enter (line : Line q jobs) (counts : Counts) (more : List String) :
    Line { q with counts := counts, bodies := q.bodies ++ more } jobs := by
  refine ⟨line.distinct, line.issued, fun job member s under => ?_⟩
  obtain ⟨first, front⟩ := line.sending job member s under
  exact ⟨first, front.trans (List.prefix_append _ _)⟩

theorem Line.issue (line : Line q jobs) :
    Line { q with turns := q.turns ++ [q.nextTicket], nextTicket := q.nextTicket + 1 } jobs := by
  refine ⟨line.distinct, fun job member => Nat.lt_succ_of_lt (line.issued job member), ?_⟩
  intro job member s under
  obtain ⟨first, front⟩ := line.sending job member s under
  refine ⟨?_, front⟩
  simp only [isTurn, beq_iff_eq] at first ⊢
  rw [List.head?_append, first, Option.some_or]

end Queue
end Telemetry.Stream
