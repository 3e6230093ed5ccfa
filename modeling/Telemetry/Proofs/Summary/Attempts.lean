import Telemetry.Proofs.Storage.Lawful
import Telemetry.Summary.Sink

/-! Attempts to write a summary file.
An attempt writes the whole report where the file does not hold it. Where a request of it fails,
every file is as it was, and so is what is noted as written. -/
namespace Telemetry.Summary.File
open LawfulStorage (content?)

variable {S : Type} [Storage S] [LawfulStorage S]

/-- All that an attempt to write a report can give. -/
inductive Attempted (s : File) (store : S) : Except Fault Unit × File × S → Prop
  | current (same : s.report.revision = s.written) : Attempted s store (.ok (), s, store)
  | failed {problem : String} {store' : S} (same : content? store' = content? store) :
    Attempted s store (.error (.io problem), s, store')
  | flushed {store' : S} (written : content? store' =
      Function.update (content? store) s.settings.path (some s.report.text)) :
    Attempted s store (.ok (), { s with written := s.report.revision }, store')

theorem write_attempted (s : File) (store : S) : Attempted s store (s.write store) := by
  unfold write
  split
  · rename_i same
    exact .current same
  · simp only
    split
    · rename_i fault store' made
      obtain ⟨same, input_output⟩ := LawfulStorage.of_made made
      obtain ⟨problem, rfl⟩ := input_output fault rfl
      exact .failed same
    · rename_i store' made
      have same := (LawfulStorage.of_made made).1
      split
      · rename_i fault store'' failed
        have unchanged := LawfulStorage.write_failed (congrArg Prod.fst failed)
        rw [failed, same] at unchanged
        obtain ⟨problem, rfl⟩ := LawfulStorage.write_io (congrArg Prod.fst failed)
        exact .failed unchanged
      · rename_i store'' wrote
        have changed := LawfulStorage.write_ok (congrArg Prod.fst wrote)
        rw [wrote, same] at changed
        exact .flushed changed

end Telemetry.Summary.File
