import Telemetry.Text.Lines

/-! The output of a process as the summary shows it. Long lines are cut into pieces,
and of many lines the first and the last ones are kept. -/
namespace Telemetry.Summary

def outputTab : String := "        "

def outputWidth : Nat := 150

/-- The lines of an output that are kept at either end of a long one. -/
def outputEdge : Nat := 3

/-- The lines of an output as they are shown: cut into pieces of 150 characters,
an empty line being one empty piece. -/
def displayLines (output : String) : List (List Char) :=
  (Text.linesList output.toList).flatMap fun line =>
    if line = [] then [[]] else Text.chunks outputWidth line

/-- A shown line, indented. -/
def outputLine (line : List Char) : String :=
  outputTab ++ String.ofList line

/-- The output of a process, with the middle left out when it is long. -/
def clipOutput (output : String) : List String :=
  let shown := displayLines output
  if shown = [] then [outputTab ++ "(none)"]
  else if shown.length ≤ 2 * outputEdge then shown.map outputLine
  else
    (shown.take outputEdge).map outputLine
      ++ [outputTab ++ outputTab ++ "... (output truncated) ..."]
      ++ (shown.drop (shown.length - outputEdge)).map outputLine

end Telemetry.Summary
