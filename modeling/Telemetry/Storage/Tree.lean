import Telemetry.Path
import Telemetry.World

/-! A tree of directories and files below a working directory.
Paths are resolved part by part: every part but the last has to be a directory.
Nodes are known by the parts that lead to them from the working directory; two
points lead one directory up, and the working directory is the top. -/
namespace Telemetry

inductive Tree.Error
  | notFound
  | alreadyExists
  | notADirectory
  | isADirectory
  | invalidInput
  | invalidFilename
deriving DecidableEq, Repr

def Tree.Error.name : Tree.Error → String
  | .notFound => "NotFound"
  | .alreadyExists => "AlreadyExists"
  | .notADirectory => "NotADirectory"
  | .isADirectory => "IsADirectory"
  | .invalidInput => "InvalidInput"
  | .invalidFilename => "InvalidFilename"

/-- Where a node lies: the parts of its path. -/
abbrev Tree.Place := List String

/-- Directories, the top excepted, and files with their contents. -/
structure Tree where
  dirs : List Tree.Place
  files : List (Tree.Place × String)
deriving Repr

namespace Tree

def empty : Tree := ⟨[], []⟩

def isDir (t : Tree) (p : Place) : Bool :=
  p.isEmpty || t.dirs.contains p

def content? (t : Tree) (p : Place) : Option String :=
  (t.files.find? fun f => f.1 == p).map (·.2)

/-- The node one part further on from a directory. -/
def stepTo (here : Place) (part : String) : Place :=
  if part = "." then here else if part = ".." then here.dropLast else here ++ [part]

/-- The directory that parts lead to. -/
def walk (t : Tree) : Place → List String → Except Error Place
  | here, [] => .ok here
  | here, part :: rest =>
    if 255 < part.utf8ByteSize then .error .invalidFilename
    else
      let next := stepTo here part
      if t.isDir next then walk t next rest
      else if (t.content? next).isSome then .error .notADirectory
      else .error .notFound

def partsOf (path : String) : List String :=
  ((Path.splitSlashes path.toList).filter (· ≠ [])).map String.ofList

/-- A path ready to be opened: the directory of its last part, and that part. -/
structure Target where
  dir : Place
  last : String
  /-- The path ends in a slash. -/
  slash : Bool

/-- Finds the directory in which the last part of a path is looked up. -/
def locate (t : Tree) (path : String) : Except Error Target :=
  if path.toList.contains '\x00' then .error .invalidInput
  else if path = "" then .error .notFound
  else if 4096 ≤ path.utf8ByteSize then .error .invalidFilename
  else
    let parts := partsOf path
    let last := parts.getLast?.getD "."
    match t.walk [] parts.dropLast with
    | .error e => .error e
    | .ok dir =>
      if 255 < last.utf8ByteSize then .error .invalidFilename
      else .ok ⟨dir, last, path.toList.getLast? == some '/'⟩

def Target.node (g : Target) : Place :=
  stepTo g.dir g.last

def makeDir (t : Tree) (path : String) : Except Error Tree :=
  match t.locate path with
  | .error e => .error e
  | .ok g =>
    if t.isDir g.node || (t.content? g.node).isSome then .error .alreadyExists
    else .ok { t with dirs := t.dirs ++ [g.node] }

def leadsToDir (t : Tree) (path : String) : Bool :=
  match t.locate path with
  | .error _ => false
  | .ok g => t.isDir g.node

/-- Makes a directory where it may be there already. -/
def ensureDir (t : Tree) (path : String) : Except Error Tree :=
  match t.makeDir path with
  | .ok t => .ok t
  | .error e => if t.leadsToDir path then .ok t else .error e

/-- Makes a directory and those above it that are missing; `depth` bounds how
many of them are looked at. -/
def makeDirs (t : Tree) (depth : Nat) (path : String) : Except Error Tree :=
  if path = "" then .ok t
  else
    match t.makeDir path with
    | .ok t => .ok t
    | .error .notFound =>
      match depth, Path.parent? path with
      | depth + 1, some parent =>
        match t.makeDirs depth parent with
        | .ok t => t.ensureDir path
        | .error e => .error e
      | _, _ => .error .notFound
    | .error e => if t.leadsToDir path then .ok t else .error e

/-- The names of the files of a directory, as paths from it. -/
def listFiles (t : Tree) (path : String) : Except Error (List String) :=
  match t.locate path with
  | .error e => .error e
  | .ok g =>
    if t.isDir g.node then
      .ok ((t.files.filter fun f => f.1.dropLast == g.node && !f.1.isEmpty).map fun f =>
        Path.join path (f.1.getLast?.getD ""))
    else if (t.content? g.node).isSome then .error .notADirectory
    else .error .notFound

/-- The bytes of a file. A directory has the size of one block. -/
def fileLen (t : Tree) (path : String) : Except Error Nat :=
  match t.locate path with
  | .error .notFound => .ok 0
  | .error e => .error e
  | .ok g =>
    if t.isDir g.node then .ok 4096
    else
      match t.content? g.node with
      | some text => if g.slash then .error .notADirectory else .ok text.utf8ByteSize
      | none => .ok 0

/-- Changes the content of a file, which is made if it is missing. -/
def update (t : Tree) (path : String) (f : String → String) : Except Error Tree :=
  match t.locate path with
  | .error e => .error e
  | .ok g =>
    if g.slash || t.isDir g.node then .error .isADirectory
    else
      match t.content? g.node with
      | some _ =>
        .ok { t with files := t.files.map fun e => if e.1 == g.node then (e.1, f e.2) else e }
      | none => .ok { t with files := t.files ++ [(g.node, f "")] }

def append (t : Tree) (path text : String) : Except Error Tree :=
  t.update path (· ++ text)

def write (t : Tree) (path text : String) : Except Error Tree :=
  t.update path fun _ => text

/-- The tree after a request that may fail, and its answer. -/
def settle (t : Tree) : Except Error Tree → Except Fault Unit × Tree
  | .ok t => (.ok (), t)
  | .error e => (.error (.io e.name), t)

def reply {α : Type} (t : Tree) : Except Error α → Except Fault α × Tree
  | .ok a => (.ok a, t)
  | .error e => (.error (.io e.name), t)

instance : Storage Tree where
  createDirAll dir t := t.settle (t.makeDirs dir.length dir)
  listFiles dir t := t.reply (t.listFiles dir)
  fileLen path t := t.reply (t.fileLen path)
  append path text t := t.settle (t.append path text)
  write path text t := t.settle (t.write path text)

end Tree
end Telemetry
