import Telemetry.Proofs.Property.Size
import Telemetry.Proofs.Trace.Shapes

/-! How much of its limit a cut context leaves free.
Behind the properties that fit there may be no room for one more member, which takes seven
bytes and more. Else the next key or its text ends where a character did not fit, or the whole
text of the value stands there and is not much shorter than its JSON form. -/
namespace Telemetry.Trace
open Json (memberSize size_obj size_str sizeBehind sizeBehind_append)
open Text (cut_filled escapedSize escapedSize_cut)
open Value (entriesToJson_append)

/-- What is made of a property that does not fit ends at most six bytes before the limit. -/
theorem cutMember_fills {limit used : Nat} {key : String} {value : Value}
    (plain : ∀ x, value ≠ .real x)
    (beyond : limit < used + (if 1 < used then 1 else 0) + memberSize key value.toJson + 1) :
    limit ≤ sizeBehind used (cutMember limit used key value) + 1 + 6 := by
  have comma : (if 1 < used then 1 else 0) ≤ 1 := by split <;> omega
  have text := Value.size_toJson_le plain
  rw [memberSize] at beyond
  simp only [cutMember]
  generalize left : limit - (used + ((if 1 < used then 1 else 0) + 6)) = room
  by_cases any : 0 < room
  · rw [if_pos any]
    simp only [sizeBehind, memberSize, size_str]
    obtain whole | filled := cut_filled room key
    -- The key stands there as it is, and its value is cut or the text of it is short.
    · have fits := escapedSize_cut room key
      rw [whole] at fits ⊢
      obtain all | filled := cut_filled (room - escapedSize key) value.display
      · rw [all]
        omega
      · omega
    · omega
  · rw [if_neg any, sizeBehind]
    omega

theorem constrain_size {p : Properties} {limit : Nat} (plain : ∀ e ∈ p.entries, ∀ x, e.2 ≠ .real x)
    (room : minContext ≤ limit) (exceeds : limit < p.toJson.size) :
    ∃ context, constrain p limit = .ok context ∧
      limit ≤ context.size + 6 ∧ context.size ≤ limit := by
  obtain ⟨members, cut, within⟩ := constrain_fits p room
  obtain ⟨kept, left, parts, longest, result⟩ := constrain_kept p room
  refine ⟨_, cut, ?_, within⟩
  obtain rfl : members = _ := Json.obj.inj (Except.ok.inj (cut.symm.trans result))
  cases left with
  | nil =>
    rw [List.append_nil] at parts
    have all : p.entries <+: kept := parts ▸ List.prefix_rfl
    have fits := (longest.fits_iff p.entries List.prefix_rfl).mpr all
    exact absurd fits (Nat.not_le_of_lt exceeds)
  | cons entry rest =>
    obtain ⟨key, value⟩ := entry
    have member : (key, value) ∈ p.entries := by
      rw [parts]
      exact List.mem_append_right _ List.mem_cons_self
    have beyond : limit < runSize (kept ++ [(key, value)]) + 1 := by
      by_contra fits
      have start : kept ++ [(key, value)] <+: p.entries := by
        rw [parts]
        exact (List.prefix_append_right_inj kept).mpr ⟨rest, rfl⟩
      have shorter := (longest.fits_iff _ start).mp (by rw [size_run]; omega)
      have lengths := shorter.length_le
      rw [List.length_append, List.length_singleton] at lengths
      omega
    rw [runSize, entriesToJson_append, sizeBehind_append] at beyond
    rw [size_obj, sizeBehind_append]
    exact cutMember_fills (plain _ member) beyond

theorem Shape.cut_fills {b : Budget} {name : String} {severity : Severity} {e : Event}
    {record : Entry} (shape : Shape b name severity e record)
    (plain : ∀ p ∈ e.properties.entries, ∀ x, p.2 ≠ .real x) (cut : record.constrained = true)
    (tried : record.constrainFailed = false) :
    b.maxBytes ≤ record.size + 6 ∧ record.size ≤ b.maxBytes := by
  cases shape with
  | whole => cases cut
  | diagnostic | bare => cases tried
  | @cut large room context result fits =>
    have least : 64 ≤ b.maxBytes - ((Json.obj (fixedMembers name severity e)).size +
      memberOverhead contextKey) := room
    have exceeds : contextRoom b name severity e < e.properties.toJson.size := by
      rw [size_extended rfl] at large
      rw [contextRoom]
      omega
    obtain ⟨context', same, filled, within⟩ := constrain_size plain room exceeds
    obtain rfl : context' = context := Except.ok.inj (same.symm.trans result)
    show b.maxBytes ≤ (extended name severity e contextKey context').size + 6 ∧
      (extended name severity e contextKey context').size ≤ b.maxBytes
    rw [contextRoom] at filled within
    rw [size_extended rfl]
    omega

/-- Where no property is a binary64 number, a context that is cut ends at most six bytes
before its limit, and so does the payload that it stands in before the budget. -/
theorem cut_fills_limit (p : Properties) (plain : ∀ e ∈ p.entries, ∀ x, e.2 ≠ .real x) :
    (∀ limit, minContext ≤ limit → limit < p.toJson.render.utf8ByteSize →
      ∃ context, constrain p limit = .ok context ∧
        limit - 6 ≤ context.render.utf8ByteSize ∧ context.render.utf8ByteSize ≤ limit) ∧
    ∀ (b : Budget) (name : String) (severity : Severity) (e : Event), e.properties = p →
      let record := b.serialize name severity e
      record.constrained = true → record.constrainFailed = false →
        b.maxBytes - 6 ≤ record.size ∧ record.size ≤ b.maxBytes := by
  constructor
  · intro limit room exceeds
    obtain ⟨context, result, filled, within⟩ := constrain_size plain room exceeds
    exact ⟨context, result, Nat.sub_le_iff_le_add.mpr filled, within⟩
  · rintro b name severity e rfl record cut tried
    obtain ⟨filled, within⟩ := (serialize_shape b name severity e).cut_fills plain cut tried
    exact ⟨Nat.sub_le_iff_le_add.mpr filled, within⟩

/-- Six bytes are left free where they would hold no more than a member without key and text. -/
theorem cut_fills_limit_to_six :
    let p : Properties := ⟨[("note", .text (String.ofList (List.replicate 47 'x'))),
      ("k", .text "")]⟩
    (∀ e ∈ p.entries, ∀ x, e.2 ≠ .real x) ∧ minContext ≤ 64 ∧
      64 < p.toJson.render.utf8ByteSize ∧ ∃ context, constrain p 64 = .ok context ∧
        64 - 6 ≤ context.render.utf8ByteSize ∧ context.render.utf8ByteSize = 58 := by
  intro p
  have plain : ∀ e ∈ p.entries, ∀ x, e.2 ≠ .real x := by simp [p]
  have room : minContext ≤ 64 := by decide
  have exceeds : 64 < p.toJson.render.utf8ByteSize := by decide +kernel
  obtain ⟨context, result, filled, _⟩ := (cut_fills_limit p plain).1 64 room exceeds
  have only : constrain p 64 =
      .ok (.obj [("note", .str (String.ofList (List.replicate 47 'x')))]) := by rfl
  obtain rfl := Except.ok.inj (result.symm.trans only)
  exact ⟨plain, room, exceeds, _, result, filled, by decide +kernel⟩

end Telemetry.Trace
