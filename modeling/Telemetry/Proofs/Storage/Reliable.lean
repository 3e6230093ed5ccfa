import Mathlib.Data.Fintype.Defs
import Telemetry.Storage.Memory

/-! Storages that fail no more.
That no request fails from some moment on is said by a property of the storage: requests
succeed where it holds, and keep it. -/
namespace Telemetry
namespace Storage

/-- All requests succeed, and so do all that follow them. -/
structure Reliable {S : Type} [Storage S] (P : S → Prop) : Prop where
  createDirAll : ∀ {s : S} (dir : String), P s →
    ∃ s', Storage.createDirAll dir s = (.ok (), s') ∧ P s'
  listFiles : ∀ {s : S} (dir : String), P s →
    ∃ found s', Storage.listFiles dir s = (.ok found, s') ∧ P s'
  fileLen : ∀ {s : S} (path : String), P s → ∃ n s', Storage.fileLen path s = (.ok n, s') ∧ P s'
  append : ∀ {s : S} (path text : String), P s →
    ∃ s', Storage.append path text s = (.ok (), s') ∧ P s'
  write : ∀ {s : S} (path text : String), P s →
    ∃ s', Storage.write path text s = (.ok (), s') ∧ P s'

theorem Reliable.made {S : Type} [Storage S] {P : S → Prop} (reliable : Reliable P) (dir : String)
    {s : S} (works : P s) :
    ∃ s', (if dir = "" then ((.ok () : Except Fault Unit), s)
      else Storage.createDirAll dir s) = (.ok (), s') ∧ P s' := by
  split
  · exact ⟨s, rfl, works⟩
  · exact reliable.createDirAll dir works

/-- No request fails any more. -/
def NeverFails {S : Type} [Storage S] (s : S) : Prop :=
  ∃ P : S → Prop, Reliable P ∧ P s

instance : Fintype Request where
  elems := ⟨([.createDirAll, .listFiles, .fileLen, .append, .write] : List Request), by decide⟩
  complete request := by cases request <;> decide

end Storage

namespace MemoryStore

/-- No failure lies ahead of any request. -/
def Clear (s : MemoryStore) : Prop :=
  ∀ request, s.ahead request = []

instance (s : MemoryStore) : Decidable s.Clear :=
  inferInstanceAs (Decidable (∀ request, s.ahead request = []))

/-- Where no failure lies ahead a request is carried out, and none lies ahead then either. -/
theorem answer_clear {α : Type} {s : MemoryStore} (clear : s.Clear) (request : Storage.Request)
    (path : String) (bytes : Option Nat)
    (act : List (String × String) → α × List (String × String)) :
    ∃ a s', s.answer request path bytes act = (.ok a, s') ∧ s'.Clear := by
  have passes : s.isFailing request = false := by simp [isFailing, clear request]
  refine ⟨(act s.files).1, _,
    by simp only [answer, passes, Bool.false_eq_true, if_false]; rfl, fun other => ?_⟩
  simp [note, passed, clear request, clear other]

theorem reliable : Storage.Reliable Clear where
  createDirAll dir clear := by
    obtain ⟨_, s', answered, clear'⟩ :=
      answer_clear clear .createDirAll dir none fun files => ((), files)
    exact ⟨s', answered, clear'⟩
  listFiles dir clear := answer_clear clear .listFiles dir none _
  fileLen path clear := answer_clear clear .fileLen path none _
  append path text clear := by
    obtain ⟨_, s', answered, clear'⟩ := answer_clear clear .append path (some text.utf8ByteSize)
      fun files => ((), appendTo path text files)
    exact ⟨s', answered, clear'⟩
  write path text clear := by
    obtain ⟨_, s', answered, clear'⟩ := answer_clear clear .write path (some text.utf8ByteSize)
      fun files => ((), setFile path text files)
    exact ⟨s', answered, clear'⟩

theorem neverFails {s : MemoryStore} (clear : s.Clear) : Storage.NeverFails s :=
  ⟨Clear, reliable, clear⟩

end MemoryStore
end Telemetry
