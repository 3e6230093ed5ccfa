import Telemetry.Basic
import Telemetry.Path

/-! Names of the files of a rotation.
The files of a table lie in one directory and share a stem and an extension. The
first one is called by these alone, and the n-th later one has an underscore and
the number n between them. Numbers are positive, below `2 ^ 32`, and written
without leading zeros, so a name stands for one number only. -/
namespace Telemetry.Csv

/-- What the names of a rotation have in common. -/
structure Rotation where
  dir : String
  stem : String
  /-- The extension with its point, or nothing. -/
  ext : String
deriving DecidableEq, Repr

namespace Rotation

/-- The rotation that a path belongs to. -/
def ofPath (path : String) : Rotation where
  dir := (Path.parent? path).getD ""
  stem := (Path.stem? path).getD ""
  ext := ((Path.extension? path).map fun e => "." ++ e).getD ""

def name (r : Rotation) (n : Nat) : String :=
  if n = 0 then r.stem ++ r.ext else r.stem ++ "_" ++ toString n ++ r.ext

def path (r : Rotation) (n : Nat) : String :=
  Path.join r.dir (r.name n)

/-- What stands between two texts at the ends of a third one. -/
def between? (head tail whole : List Char) : Option (List Char) :=
  if head.isPrefixOf whole then
    let rest := whole.drop head.length
    if tail.isSuffixOf rest then some (rest.take (rest.length - tail.length)) else none
  else none

/-- The number that digits write in the usual way. -/
def number? (digits : List Char) : Option Nat :=
  let n := digits.foldl (fun n c => 10 * n + (c.toNat - 48)) 0
  if 0 < n ∧ n < 2 ^ 32 ∧ Nat.toDigits 10 n = digits then some n else none

/-- The number of a file, if its name is one of the rotation. -/
def ordinal? (r : Rotation) (path : String) : Option Nat := do
  let name ← Path.fileName? path
  match ← between? r.stem.toList r.ext.toList name.toList with
  | [] => some 0
  | '_' :: digits => number? digits
  | _ => none

example : (ofPath "logs/m.csv").path 12 = "logs/m_12.csv" := by decide +kernel

example : (ofPath "logs/m.csv").ordinal? "elsewhere/m_012.csv" = none := by decide +kernel

end Rotation
end Telemetry.Csv
