import Telemetry.Summary.Report
import Telemetry.Path
import Telemetry.Sink.Basic

/-! The summary file: the whole report, written anew whenever it has changed
since it was written last. -/
namespace Telemetry.Summary

structure Settings where
  directory : String
  file : String
  intervalMs : Nat
  retry : RetryPolicy
deriving DecidableEq, Repr

def Settings.standard : Settings := ⟨".", "summary.txt", 300, .standard⟩

/-- Where the file lies. -/
def Settings.path (s : Settings) : String :=
  Path.join s.directory s.file

/-- The report and the revision of it that the file holds. -/
structure File where
  settings : Settings
  report : Report
  written : Nat

namespace File

def ofSettings (settings : Settings) : File := ⟨settings, .empty, 0⟩

variable {S : Type} [Storage S]

/-- Writes the report if the file does not hold it. -/
def write (s : File) (store : S) : Except Fault Unit × File × S :=
  if s.report.revision = s.written then (.ok (), s, store)
  else
    let dir := (Path.parent? s.settings.path).getD ""
    let made := if dir = "" then (.ok (), store) else Storage.createDirAll dir store
    match made with
    | (.error fault, store) => (.error fault, s, store)
    | (.ok (), store) =>
      match Storage.write s.settings.path s.report.text store with
      | (.error fault, store) => (.error fault, s, store)
      | (.ok (), store) => (.ok (), { s with written := s.report.revision }, store)

/-- Takes an event into the report. Messages are not part of it. -/
def add (s : File) (now : Instant) (r : Record) : File :=
  match r.payload with
  | .event e => { s with report := s.report.apply r.id e now }
  | .message _ => s

def attempt : Stage S File → Except Fault Unit × Stage S File :=
  Stage.onStore write

instance : Duty File Pause where
  name _ := "summary-file"
  operation _ := "flush"
  intervalName _ := "flush interval"
  period s := some s.settings.intervalMs
  hasNotice _ := false
  takeNotice s := s
  wake? pause _ := some pause.wake
  abandon _ s := s
  patience s := s.settings.retry.patience
  rounds _ := 0

instance : Work S File Pause where
  accept r g := { g with state := g.state.add g.world.wall r }
  begin now g := firstAttempts g.state.settings.retry now attempt g
  resume now pause g := furtherAttempts g.state.settings.retry now attempt pause g

end File
end Telemetry.Summary
