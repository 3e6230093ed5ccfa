import Telemetry.Sink.Work
import Telemetry.Stream.Envelope

/-! Envelopes that wait to be sent, and their sending in batches.
A batch stays at the front of the queue until the endpoint has accepted it. Jobs
take turns: each one holds a ticket, only the first ticket may send, and a job that
has sent a batch goes to the end of the line for its next one. -/
namespace Telemetry.Stream

/-- How the endpoint answers a send, and how long that takes. -/
structure Reply where
  delay : Tick
  accepts : Bool
deriving DecidableEq, Repr

structure Delivery where
  accepted : Bool
  bodies : List String
deriving DecidableEq, Repr

/-- Where batches are sent to: the replies that lie ahead, after which all sends are
accepted at once, and the sends so far, the last one first. -/
structure Endpoint where
  replies : List Reply
  deliveries : List Delivery
deriving DecidableEq, Repr

def Endpoint.ofReplies (replies : List Reply) : Endpoint := ⟨replies, []⟩

def Endpoint.reply (e : Endpoint) : Reply × Endpoint :=
  match e.replies with
  | [] => (⟨0, true⟩, e)
  | reply :: rest => (reply, { e with replies := rest })

/-- Envelopes that wait, with all that their sending needs. -/
structure Queue where
  settings : Settings
  /-- The name of the machine, for the envelopes. -/
  machine : String
  endpoint : Endpoint
  /-- The envelopes, the oldest one first. -/
  bodies : List String
  counts : Counts
  /-- The tickets of the jobs, in the order of their turns. -/
  turns : List Nat
  nextTicket : Nat
deriving DecidableEq, Repr

/-- A batch that is being sent. -/
structure Sending where
  batch : List String
  accepts : Bool
  wake : Tick
deriving DecidableEq, Repr

/-- A job that waits for its turn, or for the answer to a send. -/
structure Transmission where
  ticket : Nat
  sending : Option Sending
deriving DecidableEq, Repr

namespace Queue

def ofSettings (settings : Settings) (machine : String) (endpoint : Endpoint) : Queue where
  settings := settings.withCapacity settings.capacity
  machine := machine
  endpoint := endpoint
  bodies := []
  counts := ⟨0, 0, 0, 0⟩
  turns := []
  nextTicket := 0

/-- The leading envelopes that fit into some bytes. -/
def fitting : Nat → List String → List String
  | _, [] => []
  | room, body :: rest =>
    if body.utf8ByteSize ≤ room then body :: fitting (room - body.utf8ByteSize) rest else []

/-- The envelopes that are sent together: the first one, and those behind it as long
as all of them fit. -/
def batch (q : Queue) : List String :=
  match q.bodies with
  | [] => []
  | first :: rest => first :: fitting (q.settings.maxBytes - first.utf8ByteSize) rest

def bodyOf (q : Queue) (now : Instant) (exceeded : Bool) (r : Record) : String :=
  let info := if q.settings.diagnostics then some (bufferInfo q.counts q.bodies.length) else none
  (envelope now q.machine info exceeded r).render

/-- The envelope that is small enough: the whole one, else one without properties,
or none. -/
def body? (q : Queue) (now : Instant) (r : Record) : Option String :=
  let whole := q.bodyOf now false r
  if whole.utf8ByteSize ≤ q.settings.maxBytes then some whole
  else
    let bare := q.bodyOf now true r
    if bare.utf8ByteSize ≤ q.settings.maxBytes then some bare else none

def countExpected (q : Queue) : Queue :=
  { q with counts := { q.counts with expected := q.counts.expected + 1 } }

def countDropped (q : Queue) : Queue :=
  { q with counts := { q.counts with dropped := q.counts.dropped + 1 } }

def isFull (q : Queue) : Bool :=
  q.settings.capacity ≤ q.bodies.length

/-- The queue after an answer to a send: an accepted batch is gone. -/
def answered (q : Queue) (accepted : Bool) (batch : List String) : Queue :=
  let endpoint := { q.endpoint with deliveries := ⟨accepted, batch⟩ :: q.endpoint.deliveries }
  if accepted then
    { q with
      endpoint := endpoint
      bodies := q.bodies.drop batch.length
      counts := { q.counts with transmitted := q.counts.transmitted + batch.length } }
  else
    { q with
      endpoint := endpoint
      counts := { q.counts with failed := q.counts.failed + batch.length } }

def leave (q : Queue) (ticket : Nat) : Queue :=
  { q with turns := q.turns.erase ticket }

/-- The ticket goes to the end of the line. -/
def requeue (q : Queue) (ticket : Nat) : Queue :=
  { q with turns := q.turns.erase ticket ++ [ticket] }

def isTurn (q : Queue) (ticket : Nat) : Bool :=
  q.turns.head? == some ticket

def refusal : Fault := .stream "endpoint unavailable"

/-- Sends batch after batch in the turns of a ticket, until nothing waits, a send is
refused, or there is something to wait for. At most `limit` batches are sent. -/
def sendAll (now : Tick) (ticket : Nat) : Nat → Queue → Progress Transmission × Queue
  | 0, q => (.waiting ⟨ticket, none⟩, q)
  | limit + 1, q =>
    if !q.isTurn ticket then (.waiting ⟨ticket, none⟩, q)
    else if q.bodies = [] then (.finished (.ok ()), q.leave ticket)
    else
      let batch := q.batch
      let (reply, endpoint) := q.endpoint.reply
      let q := { q with endpoint := endpoint }
      if 0 < reply.delay then
        (.waiting ⟨ticket, some ⟨batch, reply.accepts, now + reply.delay⟩⟩, q)
      else if reply.accepts then sendAll now ticket limit ((q.answered true batch).requeue ticket)
      else (.finished (.error refusal), (q.answered false batch).leave ticket)

/-- Sends all that waits, as far as the ticket's turns allow. Every batch holds at
least one envelope. -/
def send (now : Tick) (ticket : Nat) (q : Queue) : Progress Transmission × Queue :=
  q.sendAll now ticket (q.bodies.length + 1)

/-- Runs a new job, which takes a ticket. -/
def begin (now : Tick) (q : Queue) : Progress Transmission × Queue :=
  { q with
    turns := q.turns ++ [q.nextTicket], nextTicket := q.nextTicket + 1 }.send now q.nextTicket

def resume (now : Tick) (job : Transmission) (q : Queue) : Progress Transmission × Queue :=
  match job.sending with
  | none => q.send now job.ticket
  | some sending =>
    let q := q.answered sending.accepts sending.batch
    if sending.accepts then (q.requeue job.ticket).send now job.ticket
    else (.finished (.error refusal), q.leave job.ticket)

/-- The moment until which a job waits, unless its turn has to come first. -/
def wake? (job : Transmission) (q : Queue) : Option Tick :=
  match job.sending with
  | some sending => some sending.wake
  | none => if q.isTurn job.ticket then some 0 else none

end Queue
end Telemetry.Stream
