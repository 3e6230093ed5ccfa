import Telemetry.Property.Basic
import Telemetry.Host
import Telemetry.Text.Lines

/-! What a marker file tells: who ran which experiment where, one entry a line.
Keys are followed by blanks up to the longest key, whose length is taken in
bytes. -/
namespace Telemetry.Marker

def keyWidth (entries : List (String × Value)) : Nat :=
  entries.foldl (fun w e => max w e.1.utf8ByteSize) 0

def entryLine (width : Nat) (e : String × Value) : String :=
  Text.padTo width e.1 ++ " : " ++ e.2.display ++ "\n"

def render (p : Properties) : String :=
  String.join (p.entries.map (entryLine (keyWidth p.entries)))

/-- The entries of a marker file: what was found at a moment, with what is given
instead put in its place. -/
def snapshot (agent : Agent) (host : Host) (now : Instant) (overrides : Properties) :
    Properties :=
  (Properties.ofList
    [("clientId", .text agent.id),
      ("experimentId", .text agent.experiment),
      ("machineName", .text host.machineName),
      ("platformArchitecture", .text host.architecture),
      ("operatingSystemVersion", .text host.osVersion),
      ("operatingSystemDescription", .text host.osDescription),
      ("timestamp", .text (now.text 3)),
      ("timezone", .text host.timezone)]).insertAll overrides.entries

end Telemetry.Marker
