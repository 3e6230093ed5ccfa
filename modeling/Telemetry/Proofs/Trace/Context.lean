import Mathlib.Data.List.Infix
import Telemetry.Proofs.Trace.Budget

/-! What is left of a context that is cut.
The properties that fit are a run of leading ones, and no longer run fits. They stand in the
cut context as they stand in the whole one, and what comes behind them is at most one member,
made from the property that did not fit. -/
namespace Telemetry.Trace
open Json (Document sizeBehind memberSize memberChars size_obj sizeBehind_append)
open Text (escapedSize cut_prefix)
open Value (entriesToJson_append)

/-- The bytes of properties in an object, before the brace that closes it. -/
def runSize (entries : List (String × Value)) : Nat :=
  sizeBehind 1 (Value.entriesToJson entries)

theorem size_run (run : List (String × Value)) :
    (Properties.mk run).toJson.size = runSize run + 1 :=
  size_obj _

theorem le_sizeBehind (used : Nat) (members : List (String × Json)) :
    used ≤ sizeBehind used members := by
  induction members generalizing used with
  | nil => exact Nat.le_refl used
  | cons m rest ih =>
    obtain ⟨key, value⟩ := m
    have behind := ih (used + (if 1 < used then 1 else 0) + memberSize key value)
    rw [sizeBehind]
    omega

theorem runSize_mono {run longer : List (String × Value)} (start : run <+: longer) :
    runSize run ≤ runSize longer := by
  obtain ⟨more, rfl⟩ := start
  rw [runSize, runSize, entriesToJson_append, sizeBehind_append]
  exact le_sizeBehind _ _

/-- A run of leading properties that fits with its brace, where no longer one does. -/
structure LongestFit (limit : Nat) (entries kept : List (String × Value)) : Prop where
  start : kept <+: entries
  fits_iff : ∀ run, run <+: entries → ((Properties.mk run).toJson.size ≤ limit ↔ run <+: kept)

/-- It is enough that the next property does not fit. -/
theorem LongestFit.of_next {limit : Nat} {kept left : List (String × Value)}
    (fits : runSize kept + 1 ≤ limit)
    (next : ∀ e rest, left = e :: rest → limit < runSize (kept ++ [e]) + 1) :
    LongestFit limit (kept ++ left) kept where
  start := List.prefix_append kept left
  fits_iff run start := by
    rw [size_run]
    constructor
    · intro within
      obtain shorter | ⟨more, rfl⟩ :=
        List.prefix_or_prefix_of_prefix start (List.prefix_append kept left)
      · exact shorter
      -- A run that goes on from what was kept goes on with the next property.
      · cases more with
        | nil => rw [List.append_nil]
        | cons e more =>
          obtain ⟨rest, rfl⟩ := (List.prefix_append_right_inj kept).mp start
          have beyond := next e (more ++ rest) rfl
          have longer : runSize (kept ++ [e]) ≤ runSize (kept ++ e :: more) :=
            runSize_mono ((List.prefix_append_right_inj kept).mpr (List.prefix_append [e] more))
          exact absurd within (by omega)
    · intro shorter
      exact Nat.le_trans (Nat.add_le_add_right (runSize_mono shorter) 1) fits

/-- What is made of the first of the properties that did not fit. -/
def cutFirst (limit used : Nat) : List (String × Value) → List (String × Json)
  | [] => []
  | (key, value) :: _ => cutMember limit used key value

/-- The members of a cut context are those that fit, as they are, and what is made of the
next one. -/
theorem exists_kept {limit used : Nat} (fits : used + 1 ≤ limit)
    (entries : List (String × Value)) :
    ∃ kept left, entries = kept ++ left ∧
      sizeBehind used (Value.entriesToJson kept) + 1 ≤ limit ∧
      (∀ e rest, left = e :: rest →
        limit < sizeBehind used (Value.entriesToJson (kept ++ [e])) + 1) ∧
      fitMembers limit used entries = Value.entriesToJson kept ++
        cutFirst limit (sizeBehind used (Value.entriesToJson kept)) left := by
  -- Along the list, with the bytes that stand before the rest of it.
  induction entries generalizing used with
  | nil => exact ⟨[], [], rfl, fits, nofun, rfl⟩
  | cons entry rest ih =>
    obtain ⟨key, value⟩ := entry
    by_cases whole : used + (if 1 < used then 1 else 0) + memberSize key value.toJson + 1 ≤ limit
    · obtain ⟨kept, left, rfl, within, beyond, members⟩ := ih whole
      refine ⟨(key, value) :: kept, left, rfl, within, beyond, ?_⟩
      simp only [fitMembers, if_pos whole, members]
      rfl
    · refine ⟨[], (key, value) :: rest, rfl, fits, ?_, ?_⟩
      · rintro _ _ ⟨⟩
        exact Nat.lt_of_not_le whole
      · simp only [fitMembers, if_neg whole]
        rfl

/-- What may come behind the properties that fit: nothing, or a member whose key begins the
key of the next property and whose text begins the text of its value. -/
inductive Remnant : List (String × Value) → List (String × Json) → Prop
  | none (left : List (String × Value)) : Remnant left []
  | cut {key shortKey shortText : String} {value : Value} (rest : List (String × Value))
    (keyStart : shortKey.toList <+: key.toList)
    (textStart : shortText.toList <+: value.display.toList) :
    Remnant ((key, value) :: rest) [(shortKey, .str shortText)]

theorem remnant_cutFirst (limit used : Nat) (left : List (String × Value)) :
    Remnant left (cutFirst limit used left) := by
  cases left with
  | nil => exact .none []
  | cons entry rest =>
    obtain ⟨key, value⟩ := entry
    simp only [cutFirst, cutMember]
    generalize limit - (used + ((if 1 < used then 1 else 0) + 6)) = room
    by_cases any : 0 < room
    · have keyStart := cut_prefix room key
      have textStart := cut_prefix (room - escapedSize (Text.cut room key)) value.display
      rw [if_pos any]
      exact .cut rest keyStart textStart
    · rw [if_neg any]
      exact .none _

/-- The properties that fit, those that are left, and the context that is made of them. -/
theorem constrain_kept (p : Properties) {limit : Nat} (room : minContext ≤ limit) :
    ∃ kept left, p.entries = kept ++ left ∧ LongestFit limit p.entries kept ∧
      constrain p limit =
        .ok (.obj (Value.entriesToJson kept ++ cutFirst limit (runSize kept) left)) := by
  have enough : ¬ limit < minContext := Nat.not_lt.mpr room
  have fits : 1 + 1 ≤ limit := Nat.le_trans (by decide) room
  obtain ⟨kept, left, parts, within, beyond, members⟩ := exists_kept fits p.entries
  refine ⟨kept, left, parts, ?_, ?_⟩
  · rw [parts]
    exact .of_next within beyond
  · rw [constrain, if_neg enough, members]
    rfl

theorem memberChars_start (first second : List (String × Json)) :
    memberChars first <+: memberChars (first ++ second) := by
  induction first with
  | nil => exact List.nil_prefix
  | cons m rest ih =>
    obtain ⟨key, value⟩ := m
    cases rest with
    | nil =>
      cases second with
      | nil => exact List.prefix_rfl
      | cons next more =>
        refine ⟨',' :: memberChars (next :: more), ?_⟩
        simp [memberChars]
    | cons next more =>
      obtain ⟨behind, same⟩ := ih
      refine ⟨behind, ?_⟩
      rw [List.cons_append] at same ⊢
      simp [memberChars, ← same]

theorem chars_start (first second : List (String × Json)) :
    '\x7b' :: memberChars first <+: (Json.obj (first ++ second)).render.toList := by
  rw [Json.render, String.toList_ofList, Json.chars]
  exact List.cons_prefix_cons.mpr
    ⟨rfl, (memberChars_start first second).trans (List.prefix_append _ _)⟩

/-- Below the least room there is an error and no context. From there on there is one, within
its limit and readable as an object. It is the whole context where that is within the limit.
Else it holds the longest run of leading properties that fits, written as the whole context
writes it, and behind it at most one member, which is cut from the next property. -/
theorem constrain_structure (p : Properties) (limit : Nat) :
    (limit < minContext → constrain p limit =
      .error (.constrainFailed ("fixed fields leave " ++ toString limit ++ " bytes for context"))) ∧
    (minContext ≤ limit → ∃ kept left last,
      p.entries = kept ++ left ∧ LongestFit limit p.entries kept ∧ Remnant left last ∧
      let context := Json.obj (Value.entriesToJson kept ++ last)
      let start := '\x7b' :: memberChars (Value.entriesToJson kept)
      constrain p limit = .ok context ∧ context.size ≤ limit ∧
        Document.ofText? context.render = some (.obj (Json.memberDocuments
          (Value.entriesToJson kept ++ last))) ∧
        (p.toJson.size ≤ limit → context.render = p.toJson.render) ∧
        start <+: context.render.toList ∧ start <+: p.toJson.render.toList) := by
  constructor
  · intro short
    rw [constrain, if_pos short]
  · intro room
    obtain ⟨kept, left, parts, longest, result⟩ := constrain_kept p room
    refine ⟨kept, left, _, parts, longest, remnant_cutFirst limit (runSize kept) left, result,
      ?_, Json.ofText?_render _, ?_, chars_start _ _, ?_⟩
    · obtain ⟨members, same, within⟩ := constrain_fits p room
      rw [result] at same
      cases same
      exact within
    · intro whole
      have all : p.entries <+: kept := (longest.fits_iff p.entries List.prefix_rfl).mp whole
      have nothing : left = [] := by
        have longer := all.length_le
        rw [parts, List.length_append] at longer
        exact List.length_eq_zero_iff.mp (by omega)
      rw [nothing, List.append_nil] at parts
      rw [nothing, cutFirst, List.append_nil, Properties.toJson, parts]
    · rw [Properties.toJson, parts, entriesToJson_append]
      exact chars_start _ _

/-- At the least room a short property is kept, and a long one behind it is cut. With one byte
less there is no context. -/
theorem constrain_structure_least :
    let short : String × Value := ("note", .text "a")
    let long : String × Value := ("detail", .text (String.ofList (List.replicate 100 'x')))
    minContext ≤ 64 ∧
      constrain ⟨[short, long]⟩ 63 =
        .error (.constrainFailed "fixed fields leave 63 bytes for context") ∧
      ∃ last, Remnant [long] last ∧
        constrain ⟨[short, long]⟩ 64 = .ok (.obj (("note", .str "a") :: last)) := by
  intro short long
  have room : minContext ≤ 64 := by decide
  obtain ⟨kept, left, last, parts, longest, remnant, result, _⟩ :=
    (constrain_structure ⟨[short, long]⟩ 64).2 room
  have first : [short] <+: kept :=
    (longest.fits_iff [short] ⟨[long], rfl⟩).mp (by decide +kernel)
  have second : ¬ [short, long] <+: kept := fun both =>
    absurd ((longest.fits_iff [short, long] List.prefix_rfl).mpr both) (by decide +kernel)
  obtain ⟨more, rfl⟩ := first
  have behind : [long] = more ++ left := (List.cons.inj parts).2
  cases more with
  | nil =>
    obtain rfl : [long] = left := behind
    exact ⟨room, (constrain_structure ⟨[short, long]⟩ 63).1 (by decide), last, remnant, result⟩
  | cons e more =>
    obtain ⟨rfl, _⟩ := List.cons.inj behind
    exact absurd ⟨more, rfl⟩ second

end Telemetry.Trace
