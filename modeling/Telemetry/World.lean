import Telemetry.FailureReport

/-! What sinks find around them: a storage, clocks, a log and a scheduler.
A storage answers five requests for files, of which each one may fail. The wall clock
tells dates and the steady clock measures; both stand still while something waits on the
timer, whose moments are handed to each operation. Where two things can go on at once
the scheduler picks one of them. -/
namespace Telemetry

inductive Storage.Request
  | createDirAll
  | listFiles
  | fileLen
  | append
  | write
deriving DecidableEq, Repr

/-- Access to the files of a storage of type `S`, as the file sinks need it. Paths are
texts. A storage may remember what it was asked, so every request gives back the storage
after it. -/
class Storage (S : Type) where
  /-- Makes a directory and those above it. -/
  createDirAll : String → S → Except Fault Unit × S
  /-- The paths of the files in a directory. -/
  listFiles : String → S → Except Fault (List String) × S
  /-- The bytes of a file; a file that is missing has none. -/
  fileLen : String → S → Except Fault Nat × S
  /-- Puts a text at the end of a file, which is made if it is missing. -/
  append : String → String → S → Except Fault Unit × S
  /-- Gives a file a text as its whole content. -/
  write : String → String → S → Except Fault Unit × S

structure World (S : Type) where
  store : S
  wall : Instant
  /-- Milliseconds of the steady clock. -/
  steady : Nat
  /-- The lines of the log, the last one first. -/
  lines : List Journal.Line
  /-- What the scheduler will pick each time that a task may end or begin one more job:
  the job where this is `true`. The end is picked when nothing is laid down any more. -/
  picks : List Bool

namespace World

variable {S : Type}

/-- The surroundings at the beginning, with a scheduler that picks the end of tasks. -/
def ofStore (store : S) : World S where
  store := store
  wall := ⟨0, 0⟩
  steady := 0
  lines := []
  picks := []

def tell (w : World S) (line : Journal.Line) : World S :=
  { w with lines := line :: w.lines }

/-- Both clocks moved on. -/
def advance (w : World S) (ms : Nat) : World S :=
  { w with wall := w.wall.addMillis ms, steady := w.steady + ms }

/-- Counts a failure with a reporter, which may tell it. -/
def report (w : World S) (r : FailureReport) (sink operation error : String) :
    FailureReport × World S :=
  match r.report w.steady sink operation error with
  | (r, some line) => (r, w.tell line)
  | (r, none) => (r, w)

/-- The next pick of the scheduler. -/
def pick (w : World S) : Bool × World S :=
  (w.picks.headD false, { w with picks := w.picks.tail })

/-- How many more jobs the scheduler will let tasks begin that may end. -/
def further (w : World S) : Nat :=
  w.picks.count true

end World
end Telemetry
