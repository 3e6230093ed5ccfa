import Mathlib.Data.List.Nodup
import Telemetry.Proofs.Json.Fields
import Telemetry.Proofs.Trace.Context

/-! Keys of a cut context.
The keys of properties differ, but the last key of a cut context may be cut, and it is not
compared with the others. It is one of them exactly where the key that is cut goes on from a
kept one and the room that is left ends between the two. -/
namespace Telemetry.Trace
open Json (Document keys_memberDocuments sizeBehind)
open Text (escapedSize escapedCharSize cut_prefix cut_eq_iff)
open Value (entriesToJson_eq keys_entriesToJson)

theorem nodup_keys {p : Properties} (distinct : p.Distinct) : p.keys.Nodup := by
  apply List.Nodup.of_map Text.fold
  rw [Properties.keys, List.map_map]
  exact distinct

/-- The first property that does not fit has a key that goes on from this one with a
character, and the room for its key and its text holds this one and not the character. -/
def Shadowed (limit : Nat) (entries kept : List (String × Value)) (short : String) : Prop :=
  ∃ key value rest c more, entries = kept ++ (key, value) :: rest ∧
    key.toList = short.toList ++ c :: more ∧
    let taken := (Properties.mk kept).toJson.size + 6
    taken < limit ∧ taken + escapedSize short ≤ limit ∧
      limit < taken + escapedSize short + escapedCharSize c

theorem one_lt_runSize {kept : List (String × Value)} (filled : kept ≠ []) :
    1 < runSize kept := by
  cases kept with
  | nil => exact absurd rfl filled
  | cons e rest =>
    have alone : 1 < runSize [e] := by
      have positive := Json.memberSize_pos e.1 e.2.toJson
      show 1 < 1 + 0 + Json.memberSize e.1 e.2.toJson
      omega
    exact Nat.lt_of_lt_of_le alone (runSize_mono (List.prefix_append [e] rest))

/-- The key of the member that comes last is a kept one where this is shadowed. -/
theorem mem_cutFirst_iff {limit : Nat} {kept left : List (String × Value)}
    (distinct : ((kept ++ left).map Prod.fst).Nodup) {short : String}
    (member : short ∈ kept.map Prod.fst) :
    short ∈ (cutFirst limit (runSize kept) left).map Prod.fst ↔
      Shadowed limit (kept ++ left) kept short := by
  have filled : kept ≠ [] := by
    rintro rfl
    cases member
  rw [Shadowed, size_run]
  cases left with
  | nil =>
    constructor
    · intro nothing
      cases nothing
    · rintro ⟨key, value, rest, c, more, same, _⟩
      cases List.append_cancel_left same
  | cons entry rest =>
    obtain ⟨key, value⟩ := entry
    have other : short ≠ key := by
      rintro rfl
      rw [List.map_append, List.nodup_append] at distinct
      exact distinct.2.2 short member short List.mem_cons_self rfl
    simp only [cutFirst, cutMember, if_pos (one_lt_runSize filled)]
    generalize left : limit - (runSize kept + (1 + 6)) = room
    by_cases any : 0 < room
    -- What is cut begins the key and, as the keys differ, ends before it does.
    · rw [if_pos any, List.map_singleton, List.mem_singleton]
      constructor
      · intro (same : short = Text.cut room key)
        obtain ⟨more, parts⟩ := cut_prefix room key
        rw [← same] at parts
        cases more with
        | nil =>
          rw [List.append_nil] at parts
          exact absurd (String.toList_inj.mp parts) other
        | cons c more =>
          have bounds := (cut_eq_iff parts.symm).mp same.symm
          refine ⟨key, value, rest, c, more, rfl, parts.symm, ?_⟩
          omega
      · rintro ⟨_, _, _, c, more, same, parts, bounds⟩
        obtain ⟨⟨⟩, _⟩ := List.cons.inj (List.append_cancel_left same)
        exact ((cut_eq_iff parts).mpr (by omega)).symm
    · rw [if_neg any]
      constructor
      · intro nothing
        cases nothing
      · rintro ⟨_, _, _, c, more, _, _, bounds⟩
        omega

/-- What a reader finds at a key who keeps the last member of each key. -/
def lastValue? (key : String) (members : List (Option String × Document)) : Option Document :=
  members.reverse.lookup (some key)

theorem lastValue?_of_later {first later : List (Option String × Document)} {key : String}
    {d : Document} (absent : ∀ m ∈ later, m.1 ≠ some key) :
    lastValue? key (first ++ (some key, d) :: later) = some d := by
  rw [lastValue?, List.lookup_eq_some_iff]
  refine ⟨later.reverse, first.reverse, ?_, ?_⟩
  · simp
  · intro m member
    have different := absent m (List.mem_reverse.mp member)
    simpa using Ne.symm different

theorem Remnant.nodup {left : List (String × Value)} {last : List (String × Json)}
    (remnant : Remnant left last) : (last.map Prod.fst).Nodup := by
  cases remnant with
  | none left => exact List.nodup_nil
  | cut rest keyStart textStart => exact List.nodup_singleton _

/-- A kept property whose key is not the last one is read as it is. -/
theorem lastValue?_kept {kept : List (String × Value)} {last : List (String × Json)}
    (distinct : (kept.map Prod.fst).Nodup) {e : String × Value} (member : e ∈ kept)
    (absent : e.1 ∉ last.map Prod.fst) :
    lastValue? e.1 (Json.memberDocuments (Value.entriesToJson kept ++ last)) =
      some e.2.toJson.document := by
  obtain ⟨before, behind, rfl⟩ := List.append_of_mem member
  have later : e.1 ∉ behind.map Prod.fst := by
    rw [List.map_append, List.map_cons] at distinct
    exact (List.nodup_cons.mp (List.nodup_append.mp distinct).2.1).1
  simp only [Json.memberDocuments_eq, entriesToJson_eq, List.map_append, List.map_cons,
    List.append_assoc, List.cons_append]
  apply lastValue?_of_later
  intro m there same
  obtain inside | inside := List.mem_append.mp there
  · obtain ⟨_, written, rfl⟩ := List.mem_map.mp inside
    obtain ⟨next, listed, rfl⟩ := List.mem_map.mp written
    exact later (List.mem_map.mpr ⟨next, listed, Option.some.inj same⟩)
  · obtain ⟨next, listed, rfl⟩ := List.mem_map.mp inside
    exact absent (List.mem_map.mpr ⟨next, listed, Option.some.inj same⟩)

theorem lastValue?_remnant {left : List (String × Value)} {last : List (String × Json)}
    (remnant : Remnant left last) (members : List (String × Json)) {short : String}
    (there : short ∈ last.map Prod.fst) :
    ∃ key value rest text, left = (key, value) :: rest ∧
      text.toList <+: value.display.toList ∧
      lastValue? short (Json.memberDocuments (members ++ last)) = some (.str (some text)) := by
  cases remnant with
  | none left => cases there
  | @cut key shortKey text value rest keyStart textStart =>
    obtain rfl : short = shortKey := List.mem_singleton.mp there
    refine ⟨key, value, rest, text, rfl, textStart, ?_⟩
    rw [Json.memberDocuments_eq, List.map_append]
    exact lastValue?_of_later nofun

/-- Read back, the members of a cut context have keys that differ if and only if none of the
properties that were kept is shadowed by the one that was cut. A reader who keeps the last
member of a key finds each property that is not shadowed, and where one is shadowed, the text
of the one that was cut. -/
theorem cut_keys_nodup_iff (p : Properties) {limit : Nat} (distinct : p.Distinct)
    (room : minContext ≤ limit) :
    ∃ kept context members, LongestFit limit p.entries kept ∧
      constrain p limit = .ok context ∧
      Document.ofText? context.render = some (.obj members) ∧
      ((members.map Prod.fst).Nodup ↔ ∀ e ∈ kept, ¬ Shadowed limit p.entries kept e.1) ∧
      ∀ e ∈ kept,
        (¬ Shadowed limit p.entries kept e.1 →
          lastValue? e.1 members = some e.2.toJson.document) ∧
        (Shadowed limit p.entries kept e.1 → ∃ key value rest text,
          p.entries = kept ++ (key, value) :: rest ∧ text.toList <+: value.display.toList ∧
            lastValue? e.1 members = some (.str (some text))) := by
  obtain ⟨kept, left, parts, longest, result⟩ := constrain_kept p room
  have keys : ((kept ++ left).map Prod.fst).Nodup := by
    rw [← parts]
    exact nodup_keys distinct
  have keptKeys : (kept.map Prod.fst).Nodup := by
    rw [List.map_append] at keys
    exact (List.nodup_append.mp keys).1
  have shadowed (e : String × Value) (member : e ∈ kept) :
      e.1 ∈ (cutFirst limit (runSize kept) left).map Prod.fst ↔
        Shadowed limit p.entries kept e.1 := by
    rw [parts]
    exact mem_cutFirst_iff keys (List.mem_map_of_mem member)
  refine ⟨kept, _, _, longest, result, Json.ofText?_render _, ?_, ?_⟩
  · rw [keys_memberDocuments, List.nodup_map_iff (fun _ _ => Option.some.inj), List.map_append,
      keys_entriesToJson, List.nodup_append']
    constructor
    · rintro ⟨_, _, disjoint⟩ e member shadow
      exact disjoint (List.mem_map_of_mem member) ((shadowed e member).mpr shadow)
    · intro nowhere
      refine ⟨keptKeys, (remnant_cutFirst limit (runSize kept) left).nodup, ?_⟩
      intro key there last
      obtain ⟨e, member, rfl⟩ := List.mem_map.mp there
      exact nowhere e member ((shadowed e member).mp last)
  · intro e member
    constructor
    · intro nowhere
      exact lastValue?_kept keptKeys member fun last => nowhere ((shadowed e member).mp last)
    · intro shadow
      obtain ⟨key, value, rest, text, same, textStart, found⟩ :=
        lastValue?_remnant (remnant_cutFirst limit (runSize kept) left)
          (Value.entriesToJson kept) ((shadowed e member).mpr shadow)
      exact ⟨key, value, rest, text, by rw [parts, same], textStart, found⟩

/-- Where no key begins another one, the keys of the cut context differ. -/
theorem cut_keys_nodup_apart :
    let p : Properties := ⟨[("metadata", .text (String.ofList (List.replicate 35 'x'))),
      ("machine", .text (String.ofList (List.replicate 100 'x')))]⟩
    p.Distinct ∧ minContext ≤ 64 ∧ ∃ context members, constrain p 64 = .ok context ∧
      Document.ofText? context.render = some (.obj members) ∧
      (members.map Prod.fst).Nodup := by
  intro p
  have distinct : p.Distinct := by
    show (["metadata", "machine"].map Text.fold).Nodup
    decide +kernel
  have room : minContext ≤ 64 := by decide
  obtain ⟨kept, context, members, _, result, read, nodup, _⟩ :=
    cut_keys_nodup_iff p distinct room
  refine ⟨distinct, room, context, members, result, read, nodup.mpr ?_⟩
  rintro e member ⟨key, value, rest, c, more, parts, longer, _⟩
  have first : e.1 ∈ ["metadata", "machine"] := by
    show e.1 ∈ p.entries.map Prod.fst
    rw [parts]
    exact List.mem_map_of_mem (List.mem_append_left _ member)
  have second : key ∈ ["metadata", "machine"] := by
    show key ∈ p.entries.map Prod.fst
    rw [parts]
    exact List.mem_map.mpr ⟨(key, value), by simp, rfl⟩
  have start : e.1.toList <+: key.toList := ⟨c :: more, longer.symm⟩
  have length := congrArg List.length longer
  rw [List.length_append, List.length_cons] at length
  have apart : ∀ a ∈ ["metadata", "machine"], ∀ b ∈ ["metadata", "machine"],
      a.toList <+: b.toList → a.toList.length = b.toList.length := by decide +kernel
  have same := apart e.1 first key second start
  omega

/-- A kept key that begins the next one is written again with no text, and this is what a
reader who keeps the last member of a key finds. -/
theorem cut_keys_repeat :
    let p : Properties := ⟨[("metadata", .text (String.ofList (List.replicate 35 'x'))),
      ("metadata_host", .text "bench-host-3")]⟩
    p.Distinct ∧ minContext ≤ 64 ∧ ∃ context members, constrain p 64 = .ok context ∧
      Document.ofText? context.render = some (.obj members) ∧
      ¬ (members.map Prod.fst).Nodup ∧
      lastValue? "metadata" members = some (.str (some "")) := by
  refine ⟨?_, by decide, .obj [("metadata", .str (String.ofList (List.replicate 35 'x'))),
    ("metadata", .str "")], _, ?_, Json.ofText?_render _, ?_, ?_⟩
  · show (["metadata", "metadata_host"].map Text.fold).Nodup
    decide +kernel
  · rfl
  · decide +kernel
  · rfl

end Telemetry.Trace
