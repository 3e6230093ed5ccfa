import Mathlib.Logic.Function.Basic
import Telemetry.Storage.Memory

/-! What file sinks rely on in a storage. A request that fails leaves every file as
it was, one that succeeds changes at most the file that it names, and failures are
those of input and output. Files are seen through `content?`, which is not there for
the sinks themselves. -/
namespace Telemetry

/-- A storage whose requests do what they say, and nothing when they fail. -/
class LawfulStorage (S : Type) [Storage S] where
  /-- The text of a file that is there. -/
  content? : S → String → Option String
  createDirAll_content? : ∀ (dir : String) (s : S),
    content? (Storage.createDirAll dir s).2 = content? s
  createDirAll_io : ∀ {dir : String} {s : S} {fault : Fault},
    (Storage.createDirAll dir s).1 = .error fault → ∃ problem, fault = .io problem
  listFiles_content? : ∀ (dir : String) (s : S), content? (Storage.listFiles dir s).2 = content? s
  listFiles_io : ∀ {dir : String} {s : S} {fault : Fault},
    (Storage.listFiles dir s).1 = .error fault → ∃ problem, fault = .io problem
  fileLen_content? : ∀ (path : String) (s : S), content? (Storage.fileLen path s).2 = content? s
  fileLen_io : ∀ {path : String} {s : S} {fault : Fault},
    (Storage.fileLen path s).1 = .error fault → ∃ problem, fault = .io problem
  /-- The length of a file is the number of its bytes; a file that is missing has none. -/
  fileLen_ok : ∀ {path : String} {s : S} {n : Nat}, (Storage.fileLen path s).1 = .ok n →
    n = ((content? s path).getD "").utf8ByteSize
  append_failed : ∀ {path text : String} {s : S} {fault : Fault},
    (Storage.append path text s).1 = .error fault →
    content? (Storage.append path text s).2 = content? s
  append_io : ∀ {path text : String} {s : S} {fault : Fault},
    (Storage.append path text s).1 = .error fault → ∃ problem, fault = .io problem
  append_ok : ∀ {path text : String} {s : S}, (Storage.append path text s).1 = .ok () →
    content? (Storage.append path text s).2 =
      Function.update (content? s) path (some ((content? s path).getD "" ++ text))
  write_failed : ∀ {path text : String} {s : S} {fault : Fault},
    (Storage.write path text s).1 = .error fault →
    content? (Storage.write path text s).2 = content? s
  write_io : ∀ {path text : String} {s : S} {fault : Fault},
    (Storage.write path text s).1 = .error fault → ∃ problem, fault = .io problem
  write_ok : ∀ {path text : String} {s : S}, (Storage.write path text s).1 = .ok () →
    content? (Storage.write path text s).2 = Function.update (content? s) path (some text)

/-- A directory is made where it has a name. That changes no file, and it fails by input or
output only. -/
theorem LawfulStorage.of_made {S : Type} [Storage S] [LawfulStorage S] {dir : String} {s s' : S}
    {result : Except Fault Unit}
    (made : (if dir = "" then (.ok (), s) else Storage.createDirAll dir s) = (result, s')) :
    content? s' = content? s ∧
      ∀ fault, result = .error fault → ∃ problem, fault = .io problem := by
  split at made
  · cases made
    exact ⟨rfl, nofun⟩
  · have same := createDirAll_content? dir s
    rw [made] at same
    exact ⟨same, fun fault failed => createDirAll_io ((congrArg Prod.fst made).trans failed)⟩

namespace MemoryStore

/-- A request is answered with the scripted fault and the same files, or carried out. -/
theorem answer_cases {α : Type} (s : MemoryStore) (request : Storage.Request) (path : String)
    (bytes : Option Nat) (act : List (String × String) → α × List (String × String)) :
    ((s.answer request path bytes act).1 = .error scriptedFault ∧
        (s.answer request path bytes act).2.files = s.files) ∨
      ((s.answer request path bytes act).1 = .ok (act s.files).1 ∧
        (s.answer request path bytes act).2.files = (act s.files).2) := by
  have passed (r : Storage.Request) : (s.passed r).files = s.files := by
    unfold MemoryStore.passed
    split <;> rfl
  by_cases failing : s.isFailing request = true
  · left
    simp [answer, failing, note, passed]
  · right
    simp [answer, failing]

/-- What a request that changes no file leaves behind, and how it fails. -/
theorem answer_reading {α : Type} (s : MemoryStore) (request : Storage.Request) (path : String)
    (bytes : Option Nat) (read : List (String × String) → α) :
    (s.answer request path bytes fun files => (read files, files)).2.files = s.files := by
  obtain ⟨_, same⟩ | ⟨_, same⟩ := answer_cases s request path bytes fun files => (read files, files)
  · exact same
  · exact same

theorem answer_io {α : Type} {s : MemoryStore} {request : Storage.Request} {path : String}
    {bytes : Option Nat} {act : List (String × String) → α × List (String × String)} {fault : Fault}
    (failed : (s.answer request path bytes act).1 = .error fault) :
    ∃ problem, fault = .io problem := by
  obtain ⟨result, _⟩ | ⟨result, _⟩ := answer_cases s request path bytes act
  · rw [result] at failed
    cases failed
    exact ⟨_, rfl⟩
  · rw [result] at failed
    cases failed

theorem answer_failed {α : Type} {s : MemoryStore} {request : Storage.Request} {path : String}
    {bytes : Option Nat} {act : List (String × String) → α × List (String × String)} {fault : Fault}
    (failed : (s.answer request path bytes act).1 = .error fault) :
    (s.answer request path bytes act).2.files = s.files := by
  obtain ⟨_, same⟩ | ⟨result, _⟩ := answer_cases s request path bytes act
  · exact same
  · rw [result] at failed
    cases failed

theorem answer_ok {α : Type} {s : MemoryStore} {request : Storage.Request} {path : String}
    {bytes : Option Nat} {act : List (String × String) → α × List (String × String)} {a : α}
    (succeeded : (s.answer request path bytes act).1 = .ok a) :
    (act s.files).1 = a ∧ (s.answer request path bytes act).2.files = (act s.files).2 := by
  obtain ⟨result, _⟩ | ⟨result, files⟩ := answer_cases s request path bytes act
  · rw [result] at succeeded
    cases succeeded
  · rw [result] at succeeded
    cases succeeded
    exact ⟨rfl, files⟩

theorem find?_setFile (path text other : String) (files : List (String × String)) :
    ((setFile path text files).find? fun f => f.1 == other).map (·.2) =
      if other = path then some text else (files.find? fun f => f.1 == other).map (·.2) := by
  induction files with
  | nil =>
    by_cases same : other = path
    · simp [setFile, same]
    · simp [setFile, same, Ne.symm same]
  | cons f rest ih =>
    simp only [setFile]
    split
    · rename_i here
      by_cases same : other = path
      · simp [same]
      · simp [same, here, Ne.symm same]
    · rename_i elsewhere
      by_cases first : f.1 = other
      · have : other ≠ path := fun same => elsewhere (first.trans same)
        simp [first, this]
      · simpa [List.find?_cons, first] using ih

theorem content?_of_files {s t : MemoryStore} (same : t.files = s.files) :
    t.content? = s.content? := by
  funext path
  simp only [content?, same]

theorem content?_setFile {s t : MemoryStore} {path text : String}
    (files : t.files = setFile path text s.files) :
    t.content? = Function.update s.content? path (some text) := by
  funext other
  simp only [content?, files, find?_setFile, Function.update_apply]

instance : LawfulStorage MemoryStore where
  content? := content?
  createDirAll_content? _ _ := content?_of_files (answer_reading ..)
  createDirAll_io failed := answer_io failed
  listFiles_content? _ _ := content?_of_files (answer_reading ..)
  listFiles_io failed := answer_io failed
  fileLen_content? _ _ := content?_of_files (answer_reading ..)
  fileLen_io failed := answer_io failed
  fileLen_ok {path s n} succeeded := by
    rw [← (answer_ok succeeded).1]
    simp only [content?]
    cases s.files.find? fun f => f.1 == path <;> rfl
  append_failed failed := content?_of_files (answer_failed failed)
  append_io failed := answer_io failed
  append_ok succeeded := content?_setFile (answer_ok succeeded).2
  write_failed failed := content?_of_files (answer_failed failed)
  write_io failed := answer_io failed
  write_ok succeeded := content?_setFile (answer_ok succeeded).2

end MemoryStore
end Telemetry
