import Telemetry.Marker.Snapshot
import Telemetry.Path
import Telemetry.Sink.Basic

/-! The marker file, written once for a run.
The first record of any kind fixes what the file will tell. A job takes that text
along and writes it; a job that fails puts it back, and a job that is given up
does not. -/
namespace Telemetry.Marker

structure Settings where
  directory : String
  file : String
  overrides : Properties
  retry : RetryPolicy

def Settings.standard : Settings := ⟨"logs", "metadata.log", .empty, .standard⟩

/-- Where the file lies. -/
def Settings.path (s : Settings) : String :=
  Path.join s.directory s.file

/-- A marker file that was or was not fixed and written yet. -/
structure File where
  settings : Settings
  agent : Agent
  host : Host
  captured : Bool
  /-- The text that waits to be written. -/
  pending : Option String
  writes : Nat
  /-- The background task is to be told that there is something to write. -/
  notice : Bool

/-- A job that waits between two attempts to write a text. -/
structure Writing where
  content : String
  pause : Pause

namespace File

def ofSettings (settings : Settings) (agent : Agent) (host : Host) : File :=
  ⟨settings, agent, host, false, none, 0, false⟩

/-- Fixes the text at the first record. -/
def capture (m : File) (now : Instant) : File :=
  if m.captured then m
  else { m with
    captured := true
    pending := some (render (snapshot m.agent m.host now m.settings.overrides))
    notice := true }

variable {S : Type} [Storage S]

/-- Writes a text to a file whose directory is made first. -/
def writeFile (path content : String) (store : S) : Except Fault Unit × S :=
  let dir := (Path.parent? path).getD ""
  let made := if dir = "" then (.ok (), store) else Storage.createDirAll dir store
  match made with
  | (.error fault, store) => (.error fault, store)
  | (.ok (), store) => Storage.write path content store

def attempt (content : String) (g : Stage S File) : Except Fault Unit × Stage S File :=
  let (result, store) := writeFile g.state.settings.path content g.world.store
  (result, { g with world := { g.world with store := store } })

/-- A job after its attempts: the text is counted as written, or put back. -/
def conclude (content : String) :
    Progress Pause × Stage S File → Progress Writing × Stage S File
  | (.waiting pause, g) => (.waiting ⟨content, pause⟩, g)
  | (.finished (.ok ()), g) =>
    (.finished (.ok ()), { g with state := { g.state with writes := g.state.writes + 1 } })
  | (.finished (.error fault), g) =>
    (.finished (.error fault),
      { g with state := { g.state with pending := some (g.state.pending.getD content) } })

/-- Runs a new job, which takes the waiting text along. -/
def begin (now : Tick) (g : Stage S File) : Progress Writing × Stage S File :=
  match g.state.pending with
  | none => (.finished (.ok ()), g)
  | some content =>
    let g := { g with state := { g.state with pending := none } }
    conclude content (firstAttempts g.state.settings.retry now (attempt content) g)

instance : Duty File Writing where
  name _ := "marker-file"
  operation _ := "write"
  intervalName _ := ""
  period _ := none
  hasNotice m := m.notice
  takeNotice m := { m with notice := false }
  wake? job _ := some job.pause.wake
  abandon _ m := m
  patience m := m.settings.retry.patience
  rounds _ := 0

instance : Work S File Writing where
  accept _ g := { g with state := g.state.capture g.world.wall }
  begin := begin
  resume now job g :=
    conclude job.content
      (furtherAttempts g.state.settings.retry now (attempt job.content) job.pause g)

end File
end Telemetry.Marker
