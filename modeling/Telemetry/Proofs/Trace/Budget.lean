import Telemetry.Trace.Budget
import Telemetry.Proofs.Json.Reading
import Telemetry.Proofs.Json.Size

/-! Payloads keep within their budget.
The fixed members have a greatest size, whatever the event, and what is appended to
them is cut to the room that they leave. -/
namespace Telemetry.Trace
open Json (Document sizeBehind memberSize size_obj size_str sizeBehind_append)
open Text (escapedSize escapedSize_cut cut_prefix cut_of_fits)
open String (utf8Len)

theorem cutMember_fits {limit used : Nat} (fits : used + 1 ≤ limit) (key : String) (value : Value) :
    sizeBehind used (cutMember limit used key value) + 1 ≤ limit := by
  have comma : (if 1 < used then 1 else 0) ≤ 1 := by split <;> omega
  simp only [cutMember]
  generalize left : limit - (used + ((if 1 < used then 1 else 0) + 6)) = room
  by_cases any : 0 < room
  · have shortKey := escapedSize_cut room key
    have shortText := escapedSize_cut (room - escapedSize (Text.cut room key)) value.display
    rw [if_pos any]
    simp only [sizeBehind, memberSize, size_str]
    omega
  · rw [if_neg any]
    exact fits

/-- The members of a cut context fit with the brace that closes it. -/
theorem fitMembers_fits {limit used : Nat} (fits : used + 1 ≤ limit)
    (entries : List (String × Value)) :
    sizeBehind used (fitMembers limit used entries) + 1 ≤ limit := by
  induction entries generalizing used with
  | nil => exact fits
  | cons entry rest ih =>
    obtain ⟨key, value⟩ := entry
    simp only [fitMembers]
    by_cases whole : used + (if 1 < used then 1 else 0) + memberSize key value.toJson + 1 ≤ limit
    · rw [if_pos whole]
      exact ih whole
    · rw [if_neg whole]
      exact cutMember_fits fits key value

theorem constrain_fits (properties : Properties) {limit : Nat} (room : minContext ≤ limit) :
    ∃ members, constrain properties limit = .ok (.obj members) ∧
      (Json.obj members).size ≤ limit := by
  have enough : ¬ limit < minContext := Nat.not_lt.mpr room
  have fits : 1 + 1 ≤ limit := Nat.le_trans (by decide) room
  refine ⟨fitMembers limit 1 properties.entries, by rw [constrain, if_neg enough], ?_⟩
  rw [size_obj]
  exact fitMembers_fits fits properties.entries

theorem length_digits (i : Identifier) : i.digits.length = 32 := by
  simp [Identifier.digits]

theorem escapedSize_identifier (i : Identifier) : escapedSize i.text = 36 := by
  have digit (c : Char) (member : c ∈ i.digits) : Text.escapedCharSize c = 1 := by
    obtain ⟨k, _, rfl⟩ := List.mem_map.mp member
    exact (by decide : ∀ n < 16, Text.escapedCharSize (Text.hexDigit n) = 1) _
      (Nat.mod_lt _ (by decide))
  have part (k n : Nat) (c : Char) (member : c ∈ (i.digits.drop k).take n) :
      Text.escapedCharSize c = 1 :=
    digit c (List.mem_of_mem_drop (List.mem_of_mem_take member))
  have hyphen : Text.escapedCharSize '-' = 1 := rfl
  rw [escapedSize, Identifier.text, String.toList_ofList, Text.escapedSizeList_of_single]
  · simp [length_digits]
  · intro c member
    simp only [List.mem_append, List.mem_cons] at member
    rcases member with (((first | rfl | second) | rfl | third) | rfl | fourth) | rfl | fifth
    · exact digit c (List.mem_of_mem_take first)
    · exact hyphen
    · exact part 8 4 c second
    · exact hyphen
    · exact part 12 4 c third
    · exact hyphen
    · exact part 16 4 c fourth
    · exact hyphen
    · exact digit c (List.mem_of_mem_drop fifth)

/-- Durations are numbers of 64 bits with a sign. -/
def Timed (e : Event) : Prop :=
  ∀ d, e.durationMs = some d → -2 ^ 63 ≤ d ∧ d < 2 ^ 63

theorem size_duration {e : Event} (timed : Timed e) :
    (Json.ofOption .int e.durationMs).size ≤ 20 := by
  cases given : e.durationMs with
  | none => decide
  | some d => exact Json.size_int (timed d given).1 (timed d given).2

theorem size_user (user : Option String) :
    (Json.ofOption (fun u => .str (Text.cut maxFixedText u)) user).size ≤ maxFixedText + 2 := by
  cases user with
  | none => decide
  | some u =>
    rw [Json.ofOption, size_str]
    exact Nat.add_le_add_right (escapedSize_cut maxFixedText u) 2

theorem escapedSize_severity (severity : Severity) : escapedSize severity.name ≤ 11 := by
  cases severity <;> decide

/-- The fixed members are within their section for every event. -/
theorem size_fixedMembers (name : String) (severity : Severity) {e : Event} (timed : Timed e) :
    (Json.obj (fixedMembers name severity e)).size ≤ maxFixedSection := by
  have shortName := escapedSize_cut maxFixedText name
  have duration := size_duration timed
  have user := size_user e.user
  have named := escapedSize_severity severity
  have keys : escapedSize "eventName" = 9 ∧ escapedSize "severity" = 8 ∧
      escapedSize "activityId" = 10 ∧ escapedSize "parentActivityId" = 16 ∧
      escapedSize "transactionId" = 13 ∧ escapedSize "durationMs" = 10 ∧
      escapedSize "userIdentity" = 12 := by decide
  have bound := Json.sizeBehind_le 1 (fixedMembers name severity e)
  rw [size_obj]
  refine Nat.le_trans (Nat.add_le_add_right bound 1) ?_
  simp only [fixedMembers, List.map_cons, List.map_nil, List.sum_cons, List.sum_nil, memberSize,
    size_str, escapedSize_identifier, keys]
  have longest : maxFixedText = 1024 := rfl
  have whole : maxFixedSection = 2560 := rfl
  omega

theorem size_append {members : List (String × Json)} (filled : members ≠ []) {key : String}
    (plain : escapedSize key = key.utf8ByteSize) (v : Json) :
    (Json.obj (members ++ [(key, v)])).size =
      (Json.obj members).size + memberOverhead key + v.size := by
  have inside : 1 < sizeBehind 1 members := by
    cases members with
    | nil => exact absurd rfl filled
    | cons m rest =>
      have positive := Json.memberSize_pos m.1 m.2
      rw [sizeBehind, if_neg (Nat.lt_irrefl 1), Json.sizeBehind_inside (by omega)]
      omega
  rw [size_obj, size_obj, sizeBehind_append, sizeBehind, if_pos inside, sizeBehind, memberSize,
    plain, memberOverhead]
  omega

/-- The context of a payload is an object, and the payload is within the budget. -/
theorem serialize_context {b : Budget} (least : minEventBytes ≤ b.maxBytes) (name : String)
    (severity : Severity) {e : Event} (timed : Timed e) :
    ∃ context constrained,
      let payload := Json.obj (fixedMembers name severity e ++ [(contextKey, .obj context)])
      b.serialize name severity e = Budget.entry name severity e payload constrained false ∧
        payload.size ≤ b.maxBytes := by
  have fixed := size_fixedMembers name severity timed
  have plain : escapedSize contextKey = contextKey.utf8ByteSize := rfl
  have filled : fixedMembers name severity e ≠ [] := List.cons_ne_nil _ _
  rw [minEventBytes] at least
  by_cases whole : (Json.obj (fixedMembers name severity e ++
      [(contextKey, e.properties.toJson)])).size ≤ b.maxBytes
  · exact ⟨_, false, by rw [Budget.serialize]; exact if_pos whole, whole⟩
  · have room : minContext ≤ b.maxBytes -
        ((Json.obj (fixedMembers name severity e)).size + memberOverhead contextKey) := by omega
    obtain ⟨context, cut, fits⟩ := constrain_fits e.properties room
    refine ⟨context, true, ?_, ?_⟩
    · simp only [Budget.serialize, if_neg whole, cut]
    · rw [size_append filled plain]
      omega

structure Shortened (whole short : String) : Prop where
  start : short.toList <+: whole.toList
  fits : escapedSize short ≤ maxFixedText
  unchanged : escapedSize whole ≤ maxFixedText → short = whole

theorem shortened_cut (s : String) : Shortened s (Text.cut maxFixedText s) where
  start := cut_prefix maxFixedText s
  fits := escapedSize_cut maxFixedText s
  unchanged := cut_of_fits

/-- The fixed members as they are read, of an event with this name and this user. -/
def fixedDocuments (name : String) (user : Option String) (severity : Severity) (e : Event) :
    List (Option String × Document) :=
  [(some "eventName", .str (some name)),
    (some "severity", .str (some severity.name)),
    (some "activityId", .str (some e.activity.text)),
    (some "parentActivityId", .str (some e.parent.text)),
    (some "transactionId", .str (some e.transaction.text)),
    (some "durationMs", e.durationMs.elim .null fun d => .number (toString d).toList),
    (some "userIdentity", user.elim .null fun u => .str (some u))]

theorem document_payload (name : String) (severity : Severity) (e : Event)
    (context : List (String × Json)) :
    (Json.obj (fixedMembers name severity e ++ [(contextKey, .obj context)])).document =
      .obj (fixedDocuments (Text.cut maxFixedText name) (e.user.map (Text.cut maxFixedText))
        severity e ++ [(some contextKey, .obj (Json.memberDocuments context))]) := by
  obtain ⟨activity, parent, transaction, user, duration, properties⟩ := e
  cases user <;> cases duration <;> rfl

/-- Every record is within a budget of the least size, with the whole identity of its
event and with a context. So is the record that has no context. -/
theorem serialize_within_budget (b : Budget) (name : String) (severity : Severity) (e : Event)
    (least : minEventBytes ≤ b.maxBytes) (timed : Timed e) :
    (b.serialize name severity e).size ≤ b.maxBytes ∧
    (b.serialize name severity e).constrainFailed = false ∧
    (∃ shortName user context, Shortened name shortName ∧ Option.Rel Shortened e.user user ∧
      Document.ofText? (b.serialize name severity e).payload =
        some (.obj (fixedDocuments shortName user severity e ++
          [(some contextKey, .obj context)]))) ∧
    (Budget.minimal name severity e).size ≤ b.maxBytes := by
  obtain ⟨context, constrained, record, fits⟩ := serialize_context least name severity timed
  have minimal : (Json.obj (fixedMembers name severity e)).size ≤ b.maxBytes := by
    have fixed := size_fixedMembers name severity timed
    rw [minEventBytes] at least
    omega
  rw [record]
  refine ⟨fits, rfl, ⟨_, e.user.map (Text.cut maxFixedText), Json.memberDocuments context,
    shortened_cut name, ?_, ?_⟩, minimal⟩
  · cases e.user with
    | none => exact .none
    | some u => exact .some (shortened_cut u)
  · exact (Json.ofText?_render _).trans (congrArg some (document_payload name severity e context))

/-- The least budget and an event with more of a context than it holds. -/
theorem serialize_within_least_budget :
    let b : Budget := ⟨minEventBytes⟩
    let e := ((Event.ofActivity .placeholder).withDuration (-5)).withProperty "note"
      (.text (String.ofList (List.replicate 5000 'x')))
    minEventBytes ≤ b.maxBytes ∧ Timed e ∧
      (b.serialize "step" .warning e).size ≤ 2635 ∧
      (b.serialize "step" .warning e).constrainFailed = false ∧
      ∃ context, Document.ofText? (b.serialize "step" .warning e).payload =
        some (.obj
          (fixedDocuments "step" none .warning e ++ [(some contextKey, .obj context)])) := by
  intro b e
  have least : minEventBytes ≤ b.maxBytes := Nat.le_refl _
  have timed : Timed e := by
    intro d given
    cases given
    decide
  obtain ⟨fits, complete, ⟨name, user, context, short, same, read⟩, _⟩ :=
    serialize_within_budget b "step" .warning e least timed
  have whole : name = "step" := short.unchanged (by decide)
  have anonymous : user = none := by cases same; rfl
  rw [whole, anonymous] at read
  exact ⟨least, timed, fits, complete, context, read⟩

end Telemetry.Trace
