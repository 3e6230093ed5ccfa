import Telemetry.Time.Instant
import Telemetry.Text.Lines

/-! Lines of the summary.
A message is written line by line. The first part of a line follows the moment at
which it was written, and a line too long for one row goes on below, indented.
Empty lines of a message are left out. Rows have at most 250 characters. -/
namespace Telemetry.Summary

def rowWidth : Nat := 250

def stamp (at_ : Instant) : String :=
  at_.logText ++ "  |  "

/-- The rows of one line: its pieces, the first one behind the stamp and the
others behind as many blanks. -/
def lineRows (stamp : List Char) (line : List Char) : List (List Char) :=
  match Text.chunks (rowWidth - stamp.length) line with
  | [] => []
  | first :: rest =>
    (stamp ++ first) :: rest.map fun piece => List.replicate stamp.length ' ' ++ piece

def messageRows (at_ : Instant) (message : String) : List (List Char) :=
  (Text.linesList message.toList).flatMap (lineRows (stamp at_).toList)

/-- The text of a message: its rows, each ended by a line feed. -/
def messageText (at_ : Instant) (message : String) : String :=
  String.ofList ((messageRows at_ message).flatMap (· ++ ['\n']))

def appendMessage (text : String) (message : String) (at_ : Instant) : String :=
  text ++ messageText at_ message

end Telemetry.Summary
