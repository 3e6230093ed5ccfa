import Telemetry.Proofs.Storage.Lawful

/-! What a listing shows. A directory lists each of its files once, and nothing that
is not there. This holds of a storage that knows each of its files by one path only,
and no request changes that. -/
namespace Telemetry

/-- A storage whose listings show the files that are there. -/
class LawfulListing (S : Type) [Storage S] extends LawfulStorage S where
  /-- Each file is kept once. -/
  Tidy : S → Prop
  /-- A path leads into a directory. -/
  Inside : String → String → Prop
  createDirAll_tidy : ∀ (dir : String) {s : S}, Tidy s → Tidy (Storage.createDirAll dir s).2
  listFiles_tidy : ∀ (dir : String) {s : S}, Tidy s → Tidy (Storage.listFiles dir s).2
  fileLen_tidy : ∀ (path : String) {s : S}, Tidy s → Tidy (Storage.fileLen path s).2
  append_tidy : ∀ (path text : String) {s : S}, Tidy s → Tidy (Storage.append path text s).2
  listFiles_nodup : ∀ {dir : String} {s : S} {found : List String}, Tidy s →
    (Storage.listFiles dir s).1 = .ok found → found.Nodup
  mem_listFiles : ∀ {dir : String} {s : S} {found : List String},
    (Storage.listFiles dir s).1 = .ok found →
    ∀ path, path ∈ found ↔ Inside dir path ∧ (content? s path).isSome

theorem LawfulListing.of_made {S : Type} [Storage S] [LawfulListing S] {dir : String} {s s' : S}
    {result : Except Fault Unit}
    (made : (if dir = "" then (.ok (), s) else Storage.createDirAll dir s) = (result, s'))
    (tidy : Tidy s) : Tidy s' := by
  split at made
  · cases made
    exact tidy
  · have kept := createDirAll_tidy dir tidy
    rwa [made] at kept

namespace MemoryStore

def keys (s : MemoryStore) : List String :=
  s.files.map (·.1)

theorem isSome_content? (s : MemoryStore) (path : String) :
    (s.content? path).isSome ↔ path ∈ s.keys := by
  simp [content?, keys]

theorem keys_setFile (path text : String) (files : List (String × String)) :
    (setFile path text files).map (·.1) =
      if path ∈ files.map (·.1) then files.map (·.1) else files.map (·.1) ++ [path] := by
  induction files with
  | nil => rfl
  | cons f rest ih =>
    unfold setFile
    by_cases here : f.1 = path
    · simp [here]
    · rw [if_neg here, List.map_cons, ih]
      have other : path ≠ f.1 := Ne.symm here
      by_cases behind : path ∈ rest.map (·.1)
      · simp [behind]
      · simp [behind, other]

theorem nodup_setFile (path text : String) {files : List (String × String)}
    (once : (files.map (·.1)).Nodup) : ((setFile path text files).map (·.1)).Nodup := by
  rw [keys_setFile]
  split
  · exact once
  · rename_i absent
    refine List.nodup_append.mpr ⟨once, by simp, ?_⟩
    rintro key member _ last rfl
    exact absent (List.mem_singleton.mp last ▸ member)

theorem nodup_answer {α : Type} {s : MemoryStore} (request : Storage.Request) (path : String)
    (bytes : Option Nat) {act : List (String × String) → α × List (String × String)}
    (keeps : ∀ files, (files.map (·.1)).Nodup → ((act files).2.map (·.1)).Nodup)
    (once : s.keys.Nodup) : (s.answer request path bytes act).2.keys.Nodup := by
  unfold keys at *
  obtain ⟨_, files⟩ | ⟨_, files⟩ := answer_cases s request path bytes act
  · rwa [files]
  · rw [files]
    exact keeps _ once

theorem listFiles_ok {dir : String} {s : MemoryStore} {found : List String}
    (listed : (Storage.listFiles dir s).1 = .ok found) :
    found = (s.keys.filter (liesIn dir)).mergeSort fun a b => decide (b ≤ a) :=
  (answer_ok listed).1.symm

instance : LawfulListing MemoryStore where
  Tidy s := s.keys.Nodup
  Inside dir path := liesIn dir path = true
  createDirAll_tidy _ _ once := nodup_answer _ _ _ (fun _ once => once) once
  listFiles_tidy _ _ once := nodup_answer _ _ _ (fun _ once => once) once
  fileLen_tidy _ _ once := nodup_answer _ _ _ (fun _ once => once) once
  append_tidy _ _ _ once := nodup_answer _ _ _ (fun _ once => nodup_setFile _ _ once) once
  listFiles_nodup once listed := by
    rw [listFiles_ok listed]
    exact (List.mergeSort_perm _ _).nodup_iff.mpr (once.filter _)
  mem_listFiles {dir s found} listed path := by
    rw [listFiles_ok listed, (List.mergeSort_perm _ _).mem_iff, List.mem_filter, and_comm]
    exact and_congr_right fun _ => (isSome_content? s path).symm

end MemoryStore
end Telemetry
