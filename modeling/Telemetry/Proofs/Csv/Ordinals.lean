import Telemetry.Proofs.Csv.Names

/-! The number of a file is read off its name exactly.
A name of the rotation gives the number that it was made from, and a path that gives
a number has the name that is made from it. -/
namespace Telemetry.Csv.Rotation
open Telemetry.Path

theorem between?_append (head middle tail : List Char) :
    between? head tail (head ++ (middle ++ tail)) = some middle := by
  have front : head.isPrefixOf (head ++ (middle ++ tail)) = true :=
    List.isPrefixOf_iff_prefix.mpr (List.prefix_append _ _)
  have back : tail.isSuffixOf (middle ++ tail) = true :=
    List.isSuffixOf_iff_suffix.mpr (List.suffix_append _ _)
  simp [between?, front, back]

theorem eq_of_between? {head tail whole middle : List Char}
    (found : between? head tail whole = some middle) : whole = head ++ (middle ++ tail) := by
  unfold between? at found
  split at found
  · rename_i front
    obtain ⟨rest, rfl⟩ := List.isPrefixOf_iff_prefix.mp front
    simp only [List.drop_left] at found
    split at found
    · rename_i back
      obtain ⟨inner, rfl⟩ := List.isSuffixOf_iff_suffix.mp back
      have same : inner = middle := by simpa using found
      rw [same]
    · contradiction
  · contradiction

theorem number?_toDigits {n : Nat} (positive : 0 < n) (small : n < 2 ^ 32) :
    number? (Nat.toDigits 10 n) = some n := by
  have read : (Nat.toDigits 10 n).foldl (fun n c => 10 * n + (c.toNat - 48)) 0 = n :=
    Nat.ofDigitChars_toDigits (by decide) (by decide)
  simp only [number?, read]
  exact if_pos ⟨positive, small, trivial⟩

theorem eq_of_number? {digits : List Char} {n : Nat} (read : number? digits = some n) :
    0 < n ∧ n < 2 ^ 32 ∧ Nat.toDigits 10 n = digits := by
  unfold number? at read
  simp only at read
  split at read
  · rename_i usual
    cases read
    exact usual
  · contradiction

theorem toList_name (r : Rotation) {n : Nat} (later : n ≠ 0) :
    (r.name n).toList = r.stem.toList ++ (('_' :: Nat.toDigits 10 n) ++ r.ext.toList) := by
  simp [name, later]

theorem toList_name_zero (r : Rotation) :
    (r.name 0).toList = r.stem.toList ++ ([] ++ r.ext.toList) := by
  simp [name]

theorem ordinal?_of_fileName? (r : Rotation) {p : String} {n : Nat} (small : n < 2 ^ 32)
    (named : fileName? p = some (r.name n)) : r.ordinal? p = some n := by
  unfold ordinal?
  rw [named]
  by_cases first : n = 0
  · subst first
    simp only [Option.bind_eq_bind, Option.bind_some, toList_name_zero, between?_append]
  · simp only [Option.bind_eq_bind, Option.bind_some, toList_name r first, between?_append]
    exact number?_toDigits (Nat.pos_of_ne_zero first) small

/-- A path with a number has the name that is made from it. -/
theorem fileName?_of_ordinal? (r : Rotation) {p : String} {n : Nat}
    (found : r.ordinal? p = some n) : fileName? p = some (r.name n) ∧ n < 2 ^ 32 := by
  unfold ordinal? at found
  obtain ⟨given, named, found⟩ := Option.bind_eq_some_iff.mp found
  obtain ⟨middle, between, found⟩ := Option.bind_eq_some_iff.mp found
  have whole := eq_of_between? between
  rw [named]
  split at found
  · cases found
    refine ⟨congrArg some (String.toList_injective ?_), by decide⟩
    rw [whole, toList_name_zero]
  · obtain ⟨positive, small, digits⟩ := eq_of_number? found
    refine ⟨congrArg some (String.toList_injective ?_), small⟩
    rw [whole, toList_name r (Nat.ne_of_gt positive), digits]
  · contradiction

theorem ordinal?_path {path given : String} (named : fileName? path = some given) {n : Nat}
    (small : n < 2 ^ 32) : (ofPath path).ordinal? ((ofPath path).path n) = some n :=
  ordinal?_of_fileName? _ small (fileName?_path named n)

/-- A rotation belongs to a path that names a file. The n-th path has the n-th name, which gives
the number n again, and the name with number zero is that of the path. A path with a number has
the name of that number and no other, wherever it lies. Names of different numbers differ, and
a path whose name is none of them has no number. -/
theorem names_decode {path given : String} (named : fileName? path = some given) :
    let r := ofPath path
    (∀ n, fileName? (r.path n) = some (r.name n)) ∧ r.name 0 = given ∧
    (∀ n < 2 ^ 32, r.ordinal? (r.path n) = some n) ∧
    (∀ p n, r.ordinal? p = some n → n < 2 ^ 32 ∧ fileName? p = some (r.name n)) ∧
    (∀ m n, r.name m = r.name n → m = n) ∧
    ∀ p, (∀ n < 2 ^ 32, fileName? p ≠ some (r.name n)) → r.ordinal? p = none := by
  intro r
  refine ⟨fileName?_path named, name_zero named, ?_, ?_, ?_, ?_⟩
  · intro n small
    exact ordinal?_path named small
  · intro p n found
    obtain ⟨name, small⟩ := fileName?_of_ordinal? r found
    exact ⟨small, name⟩
  · intro m n same
    exact name_injective r same
  · intro p outside
    rw [Option.eq_none_iff_forall_ne_some]
    intro n found
    obtain ⟨name, small⟩ := fileName?_of_ordinal? r found
    exact outside n small name

/-- A stem may end as a numbered one does. The greatest number is read back, and a number with
a zero before it or a plus sign is not one. -/
theorem names_decode_of_numbered_stem :
    let r := ofPath "logs/run.v2_07.csv"
    fileName? "logs/run.v2_07.csv" = some "run.v2_07.csv" ∧
    r.name 4294967295 = "run.v2_07_4294967295.csv" ∧
    r.ordinal? (r.path 4294967295) = some 4294967295 ∧
    r.ordinal? "old/run.v2_07_012.csv" = none ∧ r.ordinal? "old/run.v2_07_+12.csv" = none := by
  intro r
  have named : fileName? "logs/run.v2_07.csv" = some "run.v2_07.csv" := by decide +kernel
  obtain ⟨_, _, read, _⟩ := names_decode named
  exact ⟨named, by decide +kernel, read _ (by decide), by decide +kernel, by decide +kernel⟩

end Telemetry.Csv.Rotation
