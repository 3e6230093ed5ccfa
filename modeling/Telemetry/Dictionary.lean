/-! Texts by key, in the order of the keys.
Keys are compared by their code points, which is also the order of their bytes.
The order is part of the type, so two dictionaries with the same entries are
equal. -/
namespace Telemetry

/-- Values by key, in increasing order of the keys. -/
structure Dictionary (α : Type) where
  entries : List (String × α)
  sorted : entries.Pairwise fun a b => a.1 < b.1
deriving DecidableEq

namespace Dictionary

variable {α : Type}

def empty : Dictionary α := ⟨[], .nil⟩

/-- The entries with a value put in at its place. -/
def insertEntry (key : String) (value : α) : List (String × α) → List (String × α)
  | [] => [(key, value)]
  | e :: rest =>
    if key < e.1 then (key, value) :: e :: rest
    else if e.1 < key then e :: insertEntry key value rest
    else (key, value) :: rest

theorem mem_insertEntry {key : String} {value : α} {entries : List (String × α)}
    {e : String × α} (h : e ∈ insertEntry key value entries) : e = (key, value) ∨ e ∈ entries := by
  induction entries with
  | nil => simpa [insertEntry] using h
  | cons first rest ih =>
    simp only [insertEntry] at h
    split at h
    · simpa using h
    · split at h
      · rcases List.mem_cons.1 h with rfl | h
        · simp
        · rcases ih h with rfl | h
          · simp
          · simp [h]
      · rcases List.mem_cons.1 h with rfl | h
        · simp
        · simp [h]

theorem pairwise_insertEntry {key : String} {value : α} {entries : List (String × α)}
    (h : entries.Pairwise fun a b => a.1 < b.1) :
    (insertEntry key value entries).Pairwise fun a b => a.1 < b.1 := by
  induction entries with
  | nil => simp [insertEntry]
  | cons first rest ih =>
    obtain ⟨above, later⟩ := List.pairwise_cons.1 h
    simp only [insertEntry]
    split
    · rename_i before
      refine List.pairwise_cons.2 ⟨fun e he => ?_, h⟩
      rcases List.mem_cons.1 he with rfl | he
      · exact before
      · exact String.lt_trans before (above e he)
    · split
      · rename_i behind
        refine List.pairwise_cons.2 ⟨fun e he => ?_, ih later⟩
        rcases mem_insertEntry he with rfl | he
        · exact behind
        · exact above e he
      · rename_i notBefore notBehind
        have same : first.1 = key :=
          String.le_antisymm (String.not_lt.1 notBefore) (String.not_lt.1 notBehind)
        exact List.pairwise_cons.2 ⟨fun e he => same ▸ above e he, later⟩

/-- The dictionary with a value put in at a key, in the place of an older one. -/
def insert (d : Dictionary α) (key : String) (value : α) : Dictionary α :=
  ⟨insertEntry key value d.entries, pairwise_insertEntry d.sorted⟩

/-- The dictionary of entries of which the last one of a key counts. -/
def ofList (entries : List (String × α)) : Dictionary α :=
  entries.foldl (fun d e => d.insert e.1 e.2) empty

def size (d : Dictionary α) : Nat :=
  d.entries.length

end Dictionary
end Telemetry
