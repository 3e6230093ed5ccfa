import Telemetry.Marker.Snapshot
import Telemetry.Proofs.Text.Columns
import Telemetry.Proofs.Text.Lines

/-! The lines of a marker file and their column.
Each entry has a line of its own, in the order of the entries, and all keys are filled up to
one column. That column is the number of bytes of the key that has most of them. It is the
number of characters of the longest key exactly if no key takes more bytes than that. Otherwise
there are blanks behind every key that it does not need. -/
namespace Telemetry.Marker
open Text (splitFeeds splitFeeds_rows foldl_max_le_iff le_foldl_max length_le_utf8ByteSize)

def longestKey (entries : List (String × Value)) : Nat :=
  entries.foldl (fun w e => max w e.1.length) 0

/-- A key that is filled up to a column. -/
def padded (column : Nat) (key : String) : List Char :=
  key.toList ++ List.replicate (column - key.length) ' '

def row (column : Nat) (e : String × Value) : List Char :=
  padded column e.1 ++ (" : ".toList ++ e.2.display.toList)

/-- No entry has a line feed in its key or in the text of its value. -/
def OneLine (entries : List (String × Value)) : Prop :=
  ∀ e ∈ entries, '\n' ∉ e.1.toList ∧ '\n' ∉ e.2.display.toList

instance (entries : List (String × Value)) : Decidable (OneLine entries) :=
  inferInstanceAs (Decidable (∀ _ ∈ entries, _))

theorem length_le_longestKey {entries : List (String × Value)} {e : String × Value}
    (member : e ∈ entries) : e.1.length ≤ longestKey entries :=
  le_foldl_max (fun e : String × Value => e.1.length) 0 member

theorem longestKey_le_keyWidth (entries : List (String × Value)) :
    longestKey entries ≤ keyWidth entries := by
  refine (foldl_max_le_iff _ entries 0 _).mpr ⟨Nat.zero_le _, ?_⟩
  intro e member
  exact Nat.le_trans (length_le_utf8ByteSize e.1)
    (le_foldl_max (fun e : String × Value => e.1.utf8ByteSize) 0 member)

theorem keyWidth_eq_iff (entries : List (String × Value)) :
    keyWidth entries = longestKey entries ↔
      ∀ e ∈ entries, e.1.utf8ByteSize ≤ longestKey entries := by
  have least := longestKey_le_keyWidth entries
  have bound := foldl_max_le_iff (fun e : String × Value => e.1.utf8ByteSize) entries 0
    (longestKey entries)
  constructor
  · intro same
    exact (bound.mp (Nat.le_of_eq same)).2
  · intro short
    exact Nat.le_antisymm (bound.mpr ⟨Nat.zero_le _, short⟩) least

theorem length_padded {column : Nat} {key : String} (fits : key.length ≤ column) :
    (padded column key).length = column := by
  rw [padded, List.length_append, List.length_replicate, String.length_toList]
  omega

theorem padded_wider {key : String} {column wider : Nat} (fits : key.length ≤ column)
    (more : column ≤ wider) :
    padded wider key = padded column key ++ List.replicate (wider - column) ' ' := by
  have blanks : wider - key.length = column - key.length + (wider - column) := by omega
  rw [padded, padded, blanks, List.replicate_add, List.append_assoc]

/-- Rows that are filled up to different columns differ, if there are any. -/
theorem column_eq_of_rows {entries : List (String × Value)} {column other : Nat}
    (fits : longestKey entries ≤ column) (again : longestKey entries ≤ other)
    (filled : entries ≠ []) (same : entries.map (row column) = entries.map (row other)) :
    column = other := by
  obtain ⟨e, rest, rfl⟩ := List.exists_cons_of_ne_nil filled
  have key : e.1.length ≤ longestKey (e :: rest) := length_le_longestKey List.mem_cons_self
  have lengths := congrArg List.length (List.cons.inj same).1
  simp only [row, List.length_append] at lengths
  rw [length_padded (Nat.le_trans key fits), length_padded (Nat.le_trans key again)] at lengths
  exact Nat.add_right_cancel lengths

/-- The rows of a file are those with the column of the longest key exactly if no key takes more
bytes than the longest one has characters. -/
theorem rows_eq_iff (entries : List (String × Value)) :
    entries.map (row (keyWidth entries)) = entries.map (row (longestKey entries)) ↔
      ∀ e ∈ entries, e.1.utf8ByteSize ≤ longestKey entries := by
  rw [← keyWidth_eq_iff]
  constructor
  · intro same
    cases entries with
    | nil => rfl
    | cons e rest =>
      exact column_eq_of_rows (longestKey_le_keyWidth _) (Nat.le_refl _) (List.cons_ne_nil e rest)
        same
  · intro same
    rw [same]

theorem toList_entryLine (column : Nat) (e : String × Value) :
    (entryLine column e).toList = row column e ++ ['\n'] := by
  simp [entryLine, row, padded, Text.padTo, Text.spaces]

theorem toList_join_entryLine (column : Nat) (entries : List (String × Value)) :
    (String.join (entries.map (entryLine column))).toList =
      (entries.map (row column)).flatMap (· ++ ['\n']) := by
  induction entries with
  | nil => rfl
  | cons e rest ih =>
    rw [List.map_cons, String.join_cons, String.toList_append, ih, toList_entryLine,
      List.map_cons, List.flatMap_cons]

theorem splitFeeds_render {p : Properties} (oneLine : OneLine p.entries) :
    splitFeeds (render p).toList = p.entries.map (row (keyWidth p.entries)) ++ [[]] := by
  rw [render, toList_join_entryLine]
  apply splitFeeds_rows
  intro line member
  obtain ⟨e, listed, rfl⟩ := List.mem_map.mp member
  obtain ⟨key, value⟩ := oneLine e listed
  simp [row, padded, key, value]

/-- A file of entries without line feeds has one line for each of them, in their order, and
nothing behind the last one. Its column has as many characters as a key has bytes at most, so
the surplus over the longest key stands as blanks behind every key. The column is that of the
longest key exactly if no key takes more bytes than the longest one has characters. -/
theorem lines_padded_iff (p : Properties) (oneLine : OneLine p.entries) :
    let lines := splitFeeds (render p).toList
    let column := keyWidth p.entries
    let longest := longestKey p.entries
    lines = p.entries.map (row column) ++ [[]] ∧
    (∀ e ∈ p.entries, (padded longest e.1).length = longest ∧
      padded column e.1 = padded longest e.1 ++ List.replicate (column - longest) ' ') ∧
    (lines = p.entries.map (row longest) ++ [[]] ↔
      ∀ e ∈ p.entries, e.1.utf8ByteSize ≤ longest) := by
  intro lines column longest
  have whole : lines = p.entries.map (row column) ++ [[]] := splitFeeds_render oneLine
  have least : longest ≤ column := longestKey_le_keyWidth p.entries
  refine ⟨whole, ?_, ?_⟩
  · intro e member
    have fits : e.1.length ≤ longest := length_le_longestKey member
    exact ⟨length_padded fits, padded_wider fits least⟩
  · rw [whole, List.append_cancel_right_eq]
    exact rows_eq_iff p.entries

/-- A key that is not ASCII needs no more blanks than others where another key is long enough. -/
theorem lines_padded_beside_longer :
    let p := Properties.ofList [("größe", .text "7 mm"), ("longest key", .integer 2)]
    OneLine p.entries ∧
      splitFeeds (render p).toList = p.entries.map (row (longestKey p.entries)) ++ [[]] := by
  intro p
  have oneLine : OneLine p.entries := by decide +kernel
  obtain ⟨_, _, exact⟩ := lines_padded_iff p oneLine
  exact ⟨oneLine, exact.mpr (by decide +kernel)⟩

/-- A key of one character and two bytes is followed by a blank too much, and so is every other
key. -/
theorem padded_beyond_longest :
    let p := Properties.ofList [("é", .text "1"), ("k", .text "2")]
    OneLine p.entries ∧ longestKey p.entries = 1 ∧ render p = "é  : 1\nk  : 2\n" ∧
      splitFeeds (render p).toList ≠ p.entries.map (row (longestKey p.entries)) ++ [[]] := by
  decide +kernel

end Telemetry.Marker
