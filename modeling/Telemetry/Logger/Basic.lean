import Telemetry.Logger.Channel

/-! Loggers: every record goes to every channel, in the order of the channels.
A logger is itself a sink. It takes all records in, it is started channel by channel
up to the first one that cannot be started, and a flush or a stop of all channels
goes on at the same time and always succeeds: what fails is reported by the channel
where it fails. -/
namespace Telemetry

/-- Channels, and the time limit of their flushes. -/
structure Logger (α : Type) where
  channels : List (Channel α)
  flushTimeout : Span

namespace Logger

/-- The time limit of a logger that names none: one minute. -/
def standardTimeout : Span := Span.ofMillis 60000

variable {S α : Type}

def failures (l : Logger α) : Nat :=
  (l.channels.map Channel.failures).sum

def eachChannel (f : Channel α → World S → Channel α × World S) :
    List (Channel α) → World S → List (Channel α) × World S
  | [], w => ([], w)
  | c :: rest, w =>
    let (c, w) := f c w
    let (rest, w) := eachChannel f rest w
    (c :: rest, w)

/-- Does something with each channel of a logger in turn. -/
def each (f : Channel α → World S → Channel α × World S) (l : Logger α) (w : World S) :
    Logger α × World S :=
  let (channels, w) := eachChannel f l.channels w
  ({ l with channels := channels }, w)

variable [Sink S α]

/-- Starts channels up to the first one that cannot be started. -/
def startChannels (inRuntime : Bool) (now : Tick) :
    List (Channel α) → Except Fault Unit × List (Channel α)
  | [] => (.ok (), [])
  | c :: rest =>
    match Sink.start inRuntime now c.sink with
    | (.error fault, sink) => (.error fault, { c with sink := sink } :: rest)
    | (.ok (), sink) =>
      let (result, rest) := startChannels inRuntime now rest
      (result, { c with sink := sink } :: rest)

def start (inRuntime : Bool) (now : Tick) (l : Logger α) : Except Fault Unit × Logger α :=
  let (result, channels) := startChannels inRuntime now l.channels
  (result, { l with channels := channels })

/-- No flush and no stop is under way. -/
def isIdle (l : Logger α) : Bool :=
  l.channels.all fun c => c.call.isNone

instance : Sink S (Logger α) where
  name _ := "logger"
  log r l w := (.accepted, l.each (Channel.dispatch r) w)
  start := start
  beginFlush now timeout := each (Channel.beginFlush now timeout)
  beginStop now timeout := each (Channel.beginStop now timeout)
  result? l := if l.isIdle then some (.ok ()) else none
  endCall l := { l with channels := l.channels.map Channel.endCall }
  due l := l.channels.foldl (fun d c => earliest d c.due) none
  pollCall now := each (Channel.pollCall now)
  pollTasks now := each (Channel.pollTasks now)
  rounds l := (l.channels.map fun c => Sink.rounds c.sink + 1).sum
  latest now l _ := l.channels.foldl (fun t c => max t ((c.call.map (·.deadline)).getD now)) now

end Logger

namespace Session

variable {S α : Type} [Sink S α]

def emit (r : Record) (s : Session S (Logger α)) : Session S (Logger α) :=
  (s.log r).2

def flushAll (s : Session S (Logger α)) : Session S (Logger α) :=
  (s.flush s.sink.flushTimeout).2

def shutdown (s : Session S (Logger α)) : Session S (Logger α) :=
  (s.stop s.sink.flushTimeout).2

end Session
end Telemetry
