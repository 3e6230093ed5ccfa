import Telemetry.Csv.Rotation
import Telemetry.Proofs.PathName
import Std.Data.String.ToNat

/-! The files of a rotation have names of their own: different numbers give different
paths, and none but the first has the name of the path that the rotation belongs to. -/
namespace Telemetry.Csv.Rotation
open Telemetry.Path

theorem ofPath_named {path name : String} (named : fileName? path = some name) :
    (ofPath path).stem ++ (ofPath path).ext = name := by
  have stem : (ofPath path).stem = (splitName name).1 := by simp [ofPath, stem?, named]
  have ext : (ofPath path).ext = ((splitName name).2.map fun e => "." ++ e).getD "" := by
    simp [ofPath, extension?, named]
  rw [stem, ext, splitName_spec]

theorem name_zero {path name : String} (named : fileName? path = some name) :
    (ofPath path).name 0 = name := by
  simpa [Rotation.name] using ofPath_named named

theorem name_injective (r : Rotation) {m n : Nat} (same : r.name m = r.name n) : m = n := by
  have cancel {a b : String} (h : r.stem ++ "_" ++ a ++ r.ext = r.stem ++ "_" ++ b ++ r.ext) :
      a = b := by
    have lists := congrArg String.toList h
    simp only [String.toList_append, List.append_cancel_right_eq] at lists
    exact String.toList_injective (List.append_cancel_left lists)
  have longer (k : Nat) : r.stem ++ r.ext ≠ r.stem ++ "_" ++ toString k ++ r.ext := by
    intro h
    have lengths := congrArg String.length h
    simp only [String.length_append, show "_".length = 1 from rfl] at lengths
    omega
  unfold Rotation.name at same
  split at same <;> split at same
  · omega
  · exact absurd same (longer n)
  · exact absurd same.symm (longer m)
  · exact Nat.repr_injective (cancel same)

theorem no_slash_name (path : String) (n : Nat) : '/' ∉ ((ofPath path).name n).toList := by
  have parts : '/' ∉ ((ofPath path).stem ++ (ofPath path).ext).toList := by
    cases named : fileName? path with
    | none => simp [ofPath, stem?, extension?, named]
    | some name =>
      rw [ofPath_named named]
      exact (isName_of_fileName? named).no_slash
  have digits : '/' ∉ (toString n).toList := by
    rw [Nat.toString_eq_ofList_toDigits, String.toList_ofList]
    intro member
    have digit := Nat.isDigit_of_mem_toDigits (by decide) (by decide) member
    simp at digit
  unfold Rotation.name
  split
  · exact parts
  · simp only [String.toList_append, List.mem_append, not_or] at parts ⊢
    exact ⟨⟨⟨parts.1, by decide⟩, digits⟩, parts.2⟩

theorem isName_later (path : String) {n : Nat} (later : n ≠ 0) : IsName ((ofPath path).name n) := by
  have inside : '_' ∈ ((ofPath path).name n).toList := by simp [Rotation.name, later]
  refine ⟨List.ne_nil_of_mem inside, no_slash_name path n, ?_, ?_⟩
  · intro same
    rw [same] at inside
    exact absurd inside (by decide)
  · intro same
    rw [same] at inside
    exact absurd inside (by decide)

variable {path given : String}

theorem isName_name (named : fileName? path = some given) (n : Nat) :
    IsName ((ofPath path).name n) := by
  by_cases first : n = 0
  · rw [first, name_zero named]
    exact isName_of_fileName? named
  · exact isName_later path first

theorem fileName?_path (named : fileName? path = some given) (n : Nat) :
    fileName? ((ofPath path).path n) = some ((ofPath path).name n) :=
  fileName?_join (isName_name named n)

theorem path_injective (path : String) : Function.Injective (ofPath path).path := by
  intro m n same
  exact name_injective _ (join_injective (no_slash_name path m) (no_slash_name path n) same)

/-- A later file of the rotation is not the one that the path names. -/
theorem path_ne_configured (path : String) {n : Nat} (later : n ≠ 0) :
    (ofPath path).path n ≠ path := by
  intro same
  have named : fileName? ((ofPath path).path n) = some ((ofPath path).name n) :=
    fileName?_join (isName_later path later)
  rw [same] at named
  exact later (name_injective _ (name_zero named)).symm

end Telemetry.Csv.Rotation
