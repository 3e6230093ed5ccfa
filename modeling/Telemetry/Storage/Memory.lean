import Telemetry.Path
import Telemetry.World

/-! A storage of files known by the text of their paths.
Requests can be made to fail: for each kind of request it is laid down which of
those that lie ahead fail. A failed request leaves the files as they are. All
requests are written down. -/
namespace Telemetry

/-- One request that was made, the bytes that it brought, and whether it
succeeded. -/
structure MemoryStore.Call where
  request : Storage.Request
  path : String
  bytes : Option Nat
  succeeded : Bool
deriving DecidableEq, Repr

/-- Files by path, what lies ahead, and the requests so far, the last one first. -/
structure MemoryStore where
  files : List (String × String)
  /-- Which of the next requests of a kind fail; all those behind them succeed. -/
  ahead : Storage.Request → List Bool
  calls : List MemoryStore.Call

namespace MemoryStore

/-- A storage that holds files and has no failure ahead. -/
def ofFiles (files : List (String × String)) : MemoryStore := ⟨files, fun _ => [], []⟩

def content? (s : MemoryStore) (path : String) : Option String :=
  (s.files.find? fun f => f.1 == path).map (·.2)

def setFile (path text : String) : List (String × String) → List (String × String)
  | [] => [(path, text)]
  | f :: rest => if f.1 = path then (path, text) :: rest else f :: setFile path text rest

/-- The storage with other requests of a kind laid down to fail. -/
def withAhead (s : MemoryStore) (request : Storage.Request) (fails : List Bool) : MemoryStore :=
  { s with ahead := fun r => if r = request then fails else s.ahead r }

/-- The next `n` requests of a kind fail. -/
def failNext (s : MemoryStore) (request : Storage.Request) (n : Nat) : MemoryStore :=
  s.withAhead request (List.replicate n true)

/-- The next request of a kind fails. -/
def isFailing (s : MemoryStore) (request : Storage.Request) : Bool :=
  (s.ahead request).head?.getD false

/-- The storage after a request of a kind was answered. -/
def passed (s : MemoryStore) (request : Storage.Request) : MemoryStore :=
  match s.ahead request with
  | [] => s
  | _ :: rest => s.withAhead request rest

/-- The storage after a request was answered and written down. -/
def note (s : MemoryStore) (call : Call) : MemoryStore :=
  { s.passed call.request with calls := call :: s.calls }

/-- The failure of a request that was made to fail. -/
def scriptedFault : Fault := .io "scripted failure"

/-- Answers a request: with a failure if that is laid down, else with `act`. -/
def answer {α : Type} (s : MemoryStore) (request : Storage.Request) (path : String)
    (bytes : Option Nat) (act : List (String × String) → α × List (String × String)) :
    Except Fault α × MemoryStore :=
  let noted := s.note ⟨request, path, bytes, !s.isFailing request⟩
  if s.isFailing request then (.error scriptedFault, noted)
  else
    let (a, files) := act s.files
    (.ok a, { noted with files := files })

/-- A file lies in a directory; the directory "." holds the files whose paths name
no directory. -/
def liesIn (dir path : String) : Bool :=
  match Path.parent? path with
  | none => false
  | some parent => Path.same parent (if dir = "." then "" else dir)

/-- The text with another one behind it in the file at a path. -/
def appendTo (path text : String) (files : List (String × String)) : List (String × String) :=
  setFile path (((files.find? fun f => f.1 == path).map (·.2)).getD "" ++ text) files

instance : Storage MemoryStore where
  createDirAll dir s := s.answer .createDirAll dir none fun files => ((), files)
  listFiles dir s := s.answer .listFiles dir none fun files =>
    (((files.map (·.1)).filter (liesIn dir)).mergeSort fun a b => decide (b ≤ a), files)
  fileLen path s := s.answer .fileLen path none fun files =>
    (((files.find? fun f => f.1 == path).map (·.2.utf8ByteSize)).getD 0, files)
  append path text s := s.answer .append path (some text.utf8ByteSize) fun files =>
    ((), appendTo path text files)
  write path text s := s.answer .write path (some text.utf8ByteSize) fun files =>
    ((), setFile path text files)

end MemoryStore
end Telemetry
