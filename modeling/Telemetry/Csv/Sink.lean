import Telemetry.Csv.Row
import Telemetry.Csv.Rotation
import Telemetry.Sink.Basic

/-! The table of metrics, in files of limited size.
Rows wait in a buffer. Writing puts the whole buffer behind the current file, and
the header before it when the file is empty; only then does the buffer become
empty. A file that has grown beyond its limit stays as it is, and the next file is
the one to write to. Which files there are is found out when the first rows are
written. -/
namespace Telemetry.Csv

structure Settings where
  path : String
  maxFileSize : Nat
  intervalMs : Nat
  retry : RetryPolicy
deriving DecidableEq, Repr

def Settings.standard : Settings where
  path := "logs/metrics.csv"
  maxFileSize := 10 * 1024 * 1024
  intervalMs := 300
  retry := .standard

/-- The files of a table, the current one last, and the number of the next. -/
structure Files where
  paths : List String
  next : Nat
deriving DecidableEq, Repr

/-- A table: the rows that wait, and the files once they are known. -/
structure Table where
  settings : Settings
  /-- The name of the machine, for the rows. -/
  machine : String
  buffer : String
  files : Option Files
deriving Repr

namespace Table

def ofSettings (settings : Settings) (machine : String) : Table :=
  ⟨settings, machine, "", none⟩

def rotation (t : Table) : Rotation :=
  .ofPath t.settings.path

/-- The paths of the files, as far as they are known. -/
def paths (t : Table) : List String :=
  match t.files with
  | none => []
  | some f => f.paths

/-- The files of a rotation among those found in its directory, by number. -/
def adopt (r : Rotation) (configured : String) (found : List String) : Files :=
  let numbers := (found.filterMap r.ordinal?).mergeSort
  match numbers.getLast? with
  | none => ⟨[configured], 1⟩
  | some last => ⟨numbers.map r.path, last + 1⟩

variable {S : Type} [Storage S]

/-- Makes the directory and looks for files that are there already. -/
def findFiles (t : Table) (store : S) : Except Fault Files × S :=
  let r := t.rotation
  let made := if r.dir = "" then (.ok (), store) else Storage.createDirAll r.dir store
  match made with
  | (.error fault, store) => (.error fault, store)
  | (.ok (), store) =>
    match Storage.listFiles (if r.dir = "" then "." else r.dir) store with
    | (.error fault, store) => (.error fault, store)
    | (.ok found, store) => (.ok (adopt r t.settings.path found), store)

/-- The files after one of them has grown to a size. -/
def grow (t : Table) (files : Files) (size : Nat) : Files :=
  if t.settings.maxFileSize < size then
    ⟨files.paths ++ [t.rotation.path files.next], files.next + 1⟩
  else files

def writeBuffer (t : Table) (files : Files) (store : S) : Except Fault Unit × Table × S :=
  match files.paths.getLast? with
  | none => (.ok (), t, store)
  | some current =>
    match Storage.fileLen current store with
    | (.error fault, store) => (.error fault, t, store)
    | (.ok existing, store) =>
      let text := (if existing = 0 then header else "") ++ t.buffer
      match Storage.append current text store with
      | (.error fault, store) => (.error fault, t, store)
      | (.ok (), store) =>
        (.ok (),
          { t with
            buffer := ""
            files := some (t.grow files (existing + text.utf8ByteSize)) }, store)

/-- Writes what waits, if there is anything. -/
def write (t : Table) (store : S) : Except Fault Unit × Table × S :=
  if t.buffer = "" then (.ok (), t, store)
  else
    match t.files with
    | some files => t.writeBuffer files store
    | none =>
      match t.findFiles store with
      | (.error fault, store) => (.error fault, t, store)
      | (.ok files, store) => { t with files := some files }.writeBuffer files store

/-- Takes the row of an event. Messages have no row. -/
def add (t : Table) (now : Instant) (r : Record) : Table :=
  match r.payload with
  | .event e => { t with buffer := t.buffer ++ row t.machine now e }
  | .message _ => t

def attempt : Stage S Table → Except Fault Unit × Stage S Table :=
  Stage.onStore write

instance : Duty Table Pause where
  name _ := "rolling-csv"
  operation _ := "flush"
  intervalName _ := "flush interval"
  period t := some t.settings.intervalMs
  hasNotice _ := false
  takeNotice t := t
  wake? pause _ := some pause.wake
  abandon _ t := t
  patience t := t.settings.retry.patience
  rounds _ := 0

instance : Work S Table Pause where
  accept r g := { g with state := g.state.add g.world.wall r }
  begin now g := firstAttempts g.state.settings.retry now attempt g
  resume now pause g := furtherAttempts g.state.settings.retry now attempt pause g

end Table
end Telemetry.Csv
