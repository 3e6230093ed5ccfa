import Telemetry.Proofs.Storage.Lawful

/-! A storage with a list of the texts that it was asked to write, so that what was asked
of it can be told from what became of its files. -/
namespace Telemetry

/-- One request to write a text, and whether it succeeded. -/
structure Watched.Write where
  path : String
  text : String
  succeeded : Bool
deriving DecidableEq, Repr

/-- A storage and the requests to write so far, the last one first. -/
structure Watched (S : Type) where
  store : S
  writes : List Watched.Write

namespace Watched

variable {S : Type}

def ofStore (store : S) : Watched S := ⟨store, []⟩

/-- Passes a request on that is not written down. -/
def pass {α : Type} (request : S → α × S) (w : Watched S) : α × Watched S :=
  ((request w.store).1, { w with store := (request w.store).2 })

def write [Storage S] (path text : String) (w : Watched S) : Except Fault Unit × Watched S :=
  ((Storage.write path text w.store).1,
    ⟨(Storage.write path text w.store).2,
      ⟨path, text, (Storage.write path text w.store).1.isOk⟩ :: w.writes⟩)

instance [Storage S] : Storage (Watched S) where
  createDirAll dir := pass (Storage.createDirAll dir)
  listFiles dir := pass (Storage.listFiles dir)
  fileLen path := pass (Storage.fileLen path)
  append path text := pass (Storage.append path text)
  write := write

instance [Storage S] [LawfulStorage S] : LawfulStorage (Watched S) where
  content? w := LawfulStorage.content? w.store
  createDirAll_content? dir w := LawfulStorage.createDirAll_content? dir w.store
  createDirAll_io failed := LawfulStorage.createDirAll_io (S := S) failed
  listFiles_content? dir w := LawfulStorage.listFiles_content? dir w.store
  listFiles_io failed := LawfulStorage.listFiles_io (S := S) failed
  fileLen_content? path w := LawfulStorage.fileLen_content? path w.store
  fileLen_io failed := LawfulStorage.fileLen_io (S := S) failed
  fileLen_ok succeeded := LawfulStorage.fileLen_ok (S := S) succeeded
  append_failed failed := LawfulStorage.append_failed (S := S) failed
  append_io failed := LawfulStorage.append_io (S := S) failed
  append_ok succeeded := LawfulStorage.append_ok (S := S) succeeded
  write_failed failed := LawfulStorage.write_failed (S := S) failed
  write_io failed := LawfulStorage.write_io (S := S) failed
  write_ok succeeded := LawfulStorage.write_ok (S := S) succeeded

theorem of_made [Storage S] {dir : String} {w w' : Watched S} {result : Except Fault Unit}
    (made : (if dir = "" then (.ok (), w) else Storage.createDirAll dir w) = (result, w')) :
    w'.writes = w.writes := by
  split at made <;> cases made <;> rfl

theorem writes_write [Storage S] (path text : String) (w : Watched S) :
    (Storage.write path text w).2.writes =
      ⟨path, text, (Storage.write path text w).1.isOk⟩ :: w.writes := rfl

/-- The text of the last request that succeeded, empty where none did. -/
def lastText : List Write → String
  | [] => ""
  | write :: older => if write.succeeded then write.text else lastText older

theorem lastText_failed (path text : String) (writes : List Write) :
    lastText (⟨path, text, false⟩ :: writes) = lastText writes := rfl

theorem lastText_succeeded (path text : String) (writes : List Write) :
    lastText (⟨path, text, true⟩ :: writes) = text := rfl

/-- All requests named one path, and each brought the text of the last one that had
succeeded before it with more behind. -/
def Extend (path : String) : List Write → Prop
  | [] => True
  | write :: older => write.path = path ∧
    (∃ added, added ≠ "" ∧ write.text = lastText older ++ added) ∧ Extend path older

end Watched
end Telemetry
