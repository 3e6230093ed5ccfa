/-! Lines and columns of a text, counted in characters.
A line ends at a line feed, which takes a carriage return directly before it
with it; a carriage return elsewhere is part of its line. -/
namespace Telemetry.Text

/-- The pieces of a list between its line feeds; the last piece is what follows
the last line feed, and may be empty. -/
def splitFeeds : List Char → List (List Char)
  | [] => [[]]
  | c :: rest =>
    if c = '\n' then [] :: splitFeeds rest
    else
      match splitFeeds rest with
      | [] => [[c]]
      | line :: others => (c :: line) :: others

/-- A line without the carriage return that belongs to its line feed. -/
def dropReturn (line : List Char) : List Char :=
  match line.reverse with
  | '\r' :: rest => rest.reverse
  | _ => line

/-- The lines of a text. What follows the last line feed is a line only when it
is not empty, and it keeps its carriage return. -/
def linesList (cs : List Char) : List (List Char) :=
  let pieces := splitFeeds cs
  let last := pieces.getLast?.getD []
  pieces.dropLast.map dropReturn ++ (if last = [] then [] else [last])

/-- The lines of a text, as texts. -/
def lines (s : String) : List String :=
  (linesList s.toList).map String.ofList

/-- The list in pieces of `width` characters, the last one shorter when the
length is no multiple; an empty list has no pieces. A width of zero counts as
one. -/
def chunks (width : Nat) (cs : List Char) : List (List Char) :=
  if cs = [] then [] else cs.take (max width 1) :: chunks width (cs.drop (max width 1))
termination_by cs.length
decreasing_by
  have : cs.length ≠ 0 := by simpa using ‹¬cs = []›
  simp only [List.length_drop]
  omega

/-- A text of `n` blanks. -/
def spaces (n : Nat) : String :=
  String.ofList (List.replicate n ' ')

/-- The text followed by as many blanks as it lacks characters to `width`. -/
def padTo (width : Nat) (s : String) : String :=
  s ++ spaces (width - s.length)

/-- The text `n` times in a row. -/
def times (n : Nat) (c : Char) : String :=
  String.ofList (List.replicate n c)

example : lines "a\r\n\nb\r" = ["a", "", "b\r"] := by decide

example : padTo 3 "é" = "é  " := by decide

end Telemetry.Text
