/-! Paths as texts, with a slash between their parts.
Empty parts and parts that are a single point say nothing and are skipped, save
a point that begins a relative path. The last part names a file unless it is two
points. A path is kept as it was written: asking for its directory cuts the text
and does not tidy what stays. -/
namespace Telemetry.Path

/-- What the text begins with that is no part: the root slash, or the point of a
relative path. -/
def lead : List Char → List Char
  | '/' :: _ => ['/']
  | ['.'] => ['.']
  | '.' :: '/' :: _ => ['.']
  | _ => []

/-- The text behind the lead. -/
def body (cs : List Char) : List Char :=
  cs.drop (lead cs).length

/-- The part behind the last slash of a text given in reverse. -/
def lastPart (reversed : List Char) : List Char :=
  (reversed.takeWhile (· != '/')).reverse

/-- What stands before the last slash of a text given in reverse, in reverse. -/
def beforePart (reversed : List Char) : List Char :=
  (reversed.dropWhile (· != '/')).drop 1

/-- A text given in reverse without the parts at its end that say nothing. -/
def dropIdle (reversed : List Char) : List Char :=
  if reversed = [] then []
  else if lastPart reversed = [] ∨ lastPart reversed = ['.'] then dropIdle (beforePart reversed)
  else reversed
termination_by reversed.length
decreasing_by
  rename_i h _
  have hpos : 0 < reversed.length := List.length_pos_iff.2 h
  have hdrop : (reversed.dropWhile (· != '/')).length ≤ reversed.length :=
    (List.dropWhile_suffix _).length_le
  simp only [beforePart, List.length_drop]
  omega

/-- The body of a path in reverse, without idle parts at its end. -/
def reversedBody (path : String) : List Char :=
  dropIdle (body path.toList).reverse

/-- The name of the file, if the path has one. -/
def fileName? (path : String) : Option String :=
  let reversed := reversedBody path
  let part := lastPart reversed
  if reversed = [] ∨ part = ['.', '.'] then none else some (String.ofList part)

/-- The path without its last part; neither the empty path nor the root has
one. -/
def parent? (path : String) : Option String :=
  let start := lead path.toList
  let reversed := reversedBody path
  if reversed = [] then (if start = ['.'] then some "" else none)
  else some (String.ofList (start ++ (dropIdle (beforePart reversed)).reverse))

/-- A file name cut at its last point, unless that point is its first character:
stem and extension. -/
def splitName (name : String) : String × Option String :=
  let reversed := name.toList.reverse
  let tail := reversed.takeWhile (· != '.')
  let head := (reversed.dropWhile (· != '.')).drop 1
  if head = [] then (name, none)
  else (String.ofList head.reverse, some (String.ofList tail.reverse))

def stem? (path : String) : Option String :=
  (fileName? path).map fun n => (splitName n).1

/-- What follows the last point of the file name. -/
def extension? (path : String) : Option String :=
  (fileName? path).bind fun n => (splitName n).2

def isAbsolute (path : String) : Bool :=
  path.toList.head? == some '/'

/-- A path taken from a directory; an absolute path stands for itself. -/
def join (dir path : String) : String :=
  if isAbsolute path then path
  else if dir = "" ∨ dir.toList.getLast? = some '/' then dir ++ path
  else dir ++ "/" ++ path

def splitSlashes : List Char → List (List Char)
  | [] => [[]]
  | c :: rest =>
    if c = '/' then [] :: splitSlashes rest
    else
      match splitSlashes rest with
      | [] => [[c]]
      | part :: others => (c :: part) :: others

/-- The lead of a path and the parts that say something. -/
def parts (path : String) : List (List Char) :=
  let cs := path.toList
  (if lead cs = [] then [] else [lead cs])
    ++ (splitSlashes (body cs)).filter fun part => part ≠ [] ∧ part ≠ ['.']

/-- Two paths that name the same parts. -/
def same (a b : String) : Bool :=
  parts a == parts b

example : parent? "logs//x//m.csv" = some "logs//x" := by decide +kernel

example : (parent? "a/.", parent? "./m", parent? "/m", parent? "/") =
    (some "", some ".", some "/", none) := by decide +kernel

example : (stem? ".hidden", extension? "a.b.c", extension? "a.") =
    (some ".hidden", some "c", some "") := by decide +kernel

end Telemetry.Path
