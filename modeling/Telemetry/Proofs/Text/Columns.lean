import Mathlib.Data.String.Basic
import Telemetry.Text.Lines

/-! Columns of a text: what is filled up with blanks has the width of its column, and the width
of a column is the largest of the sizes in it. -/
namespace Telemetry.Text

/-- A width that is made larger for one item after another is the least that all fit into. -/
theorem foldl_max_le_iff {α : Type} (size : α → Nat) (items : List α) (start bound : Nat) :
    items.foldl (fun w item => max w (size item)) start ≤ bound ↔
      start ≤ bound ∧ ∀ item ∈ items, size item ≤ bound := by
  induction items generalizing start with
  | nil => simp
  | cons first rest ih => rw [List.foldl_cons, ih, Nat.max_le, List.forall_mem_cons, and_assoc]

theorem le_foldl_max {α : Type} (size : α → Nat) {items : List α} {item : α} (start : Nat)
    (member : item ∈ items) : size item ≤ items.foldl (fun w item => max w (size item)) start :=
  ((foldl_max_le_iff size items start _).mp (Nat.le_refl _)).2 item member

@[simp]
theorem length_spaces (n : Nat) : (spaces n).length = n := by
  rw [spaces, String.length_ofList, List.length_replicate]

theorem length_le_utf8ByteSize (s : String) : s.length ≤ s.utf8ByteSize := by
  obtain ⟨cs, rfl⟩ : ∃ cs, s = String.ofList cs := ⟨s.toList, String.ofList_toList.symm⟩
  rw [String.length_ofList, String.utf8ByteSize_ofList]
  induction cs with
  | nil => exact Nat.le_refl 0
  | cons c rest ih =>
    have filled := c.utf8Size_pos
    rw [List.length_cons, String.utf8Len_cons]
    omega

end Telemetry.Text
