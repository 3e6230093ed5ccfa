import Telemetry.Proofs.Csv.Delivery
import Telemetry.Proofs.Sink.Draining
import Telemetry.Proofs.Sink.FileSinks

/-! Tables and summary files write all that waits in one attempt where no request fails. -/
namespace Telemetry
open Service (Attempting Filing)

theorem Stage.onStore_done {S σ : Type} {P : S → Prop} {Q : σ → Prop}
    {f : σ → S → Except Fault Unit × σ × S} {g : Stage S σ}
    (done : ∃ s' store', f g.state g.world.store = (.ok (), s', store') ∧ P store' ∧ Q s') :
    ∃ g', onStore f g = (.ok (), g') ∧ P g'.world.store ∧ Q g'.state := by
  obtain ⟨s', store', done, kept⟩ := done
  refine ⟨{ g with state := s', world := { g.world with store := store' } }, ?_, kept⟩
  simp only [onStore, done]

namespace Service

/-- Where no request fails, jobs do so whose writing from a sound state leaves a clean one. -/
@[reducible]
def Filing.attempting {S σ ς : Type} [Storage S] [Duty σ Pause] [Work S σ Pause] [Filing S σ ς]
    (Sound Clean : σ → Prop)
    (written : ∀ {P : S → Prop}, Storage.Reliable P → ∀ (s : σ) {store : S}, P store → Sound s →
      ∃ s' store', Filing.write s store = (.ok (), s', store') ∧ P store' ∧ Sound s' ∧ Clean s') :
    Attempting S σ Pause where
  Sound := Sound
  Clean := Clean
  notice s := by
    rw [Filing.taken S]
    exact ⟨id, id⟩
  begin_done reliable now g works sound := by
    obtain ⟨g', done, kept⟩ := Stage.onStore_done (written reliable g.state works sound)
    exact ⟨.ok (), g', (Filing.begin_eq now g).trans (attempts_done done _ _), kept⟩
  resume_done reliable now pause g works sound := by
    obtain ⟨g', done, kept⟩ := Stage.onStore_done (written reliable g.state works sound)
    exact ⟨.ok (), g', (Filing.resume_eq now pause g).trans (attempts_done done _ _), kept⟩
  abandon := Filing.abandon_eq S

end Service

variable {S : Type} [Storage S] {P : S → Prop}

namespace Csv.Table

/-- A table that knows its files has a current one. -/
def Sound (t : Table) : Prop :=
  ∀ f, t.files = some f → f.paths ≠ []

theorem grow_paths (t : Table) {files : Files} (size : Nat) (there : files.paths ≠ []) :
    (t.grow files size).paths ≠ [] := by
  unfold grow
  split
  · simp
  · exact there

theorem findFiles_reliable (reliable : Storage.Reliable P) (t : Table) {store : S}
    (works : P store) :
    ∃ files store', t.findFiles store = (.ok files, store') ∧ P store' ∧ files.paths ≠ [] := by
  obtain ⟨store', made, works'⟩ := reliable.made t.rotation.dir works
  obtain ⟨found, store'', listed, works''⟩ :=
    reliable.listFiles (if t.rotation.dir = "" then "." else t.rotation.dir) works'
  refine ⟨adopt t.rotation t.settings.path found, store'', ?_, works'',
    (adopt_sound t.settings.path found).nonempty⟩
  simp only [findFiles, made, listed]

theorem writeBuffer_reliable (reliable : Storage.Reliable P) (t : Table) {files : Files} {store : S}
    (works : P store) (there : files.paths ≠ []) :
    ∃ t' store', t.writeBuffer files store = (.ok (), t', store') ∧ P store' ∧ t'.Sound ∧
      t'.buffer = "" := by
  have last := List.getLast?_eq_some_getLast there
  generalize files.paths.getLast there = current at last
  obtain ⟨existing, store', measured, works'⟩ := reliable.fileLen current works
  obtain ⟨store'', written, works''⟩ :=
    reliable.append current ((if existing = 0 then header else "") ++ t.buffer) works'
  simp only [writeBuffer, last, measured, written]
  refine ⟨_, store'', rfl, works'', fun f known => ?_, rfl⟩
  cases known
  exact grow_paths t _ there

theorem write_reliable (reliable : Storage.Reliable P) (t : Table) {store : S} (works : P store)
    (sound : t.Sound) :
    ∃ t' store', t.write store = (.ok (), t', store') ∧ P store' ∧ t'.Sound ∧ t'.buffer = "" := by
  unfold write
  split
  · rename_i empty
    exact ⟨t, store, rfl, works, sound, empty⟩
  · split
    · rename_i files known
      exact writeBuffer_reliable reliable t works (sound files known)
    · obtain ⟨files, store', found, works', there⟩ := findFiles_reliable reliable t works
      rw [found]
      exact writeBuffer_reliable reliable { t with files := some files } works' there

instance : Attempting S Table Pause :=
  Filing.attempting Sound (fun t => t.buffer = "") write_reliable

end Csv.Table

namespace Summary.File

theorem write_reliable (reliable : Storage.Reliable P) (s : File) {store : S} (works : P store) :
    ∃ s' store', s.write store = (.ok (), s', store') ∧ P store' ∧ True ∧
      s'.report.revision = s'.written := by
  unfold write
  split
  · rename_i written
    exact ⟨s, store, rfl, works, trivial, written⟩
  · obtain ⟨store', made, works'⟩ := reliable.made ((Path.parent? s.settings.path).getD "") works
    obtain ⟨store'', written, works''⟩ := reliable.write s.settings.path s.report.text works'
    simp only [made, written]
    exact ⟨_, store'', rfl, works'', trivial, rfl⟩

instance : Attempting S File Pause :=
  Filing.attempting (fun _ => True) (fun s => s.report.revision = s.written)
    fun reliable s _ works _ => write_reliable reliable s works

end Summary.File
end Telemetry
